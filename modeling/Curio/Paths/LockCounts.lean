import Curio.Paths.SectorLocks
import Curio.StepMachine

/-! What a step of the lock table can do, and the read counts of its rows. -/

namespace Curio.Paths

open GoRuntime Entries StepMachine List

variable {types fileType read write : SectorFileType} {action : LockAction}

theorem SectorFileType.anyOf_eq_true :
    types.anyOf fileType = true ↔ ∃ single ∈ types.allSet, single.bit = fileType := by
  simp [SectorFileType.anyOf]

theorem SectorFileType.anyOf_or {first second : SectorFileType}
    (either : first.anyOf fileType = true ∨ second.anyOf fileType = true) :
    SectorFileType.anyOf (first ||| second) fileType = true := by
  grind [SectorFileType.anyOf_eq_true, SectorFileType.mem_allSet]

theorem lockMap_eq_row {rows : List (Location × LocationRow)}
    (present : ∃ row ∈ rows, row.1.fileType = fileType) :
    ∃ row ∈ rows, row.1.fileType = fileType ∧ lockMap rows fileType = row.2.toLocks := by
  induction rows using reverseRecOn with
  | nil => simp at present
  | append_singleton rows last ih =>
    by_cases here : last.1.fileType = fileType
    · refine ⟨last, by simp, here, ?_⟩
      simp [lockMap, here]
    · have earlier : ∃ row ∈ rows, row.1.fileType = fileType := by
        grind
      obtain ⟨row, member, same, entry⟩ := ih earlier
      refine ⟨row, mem_append_left _ member, same, ?_⟩
      rw [← entry]
      simp [lockMap, Function.update_of_ne (Ne.symm here)]

section Rows

variable {table : LocationTable} {location : Location} {row : LocationRow} {hold : Hold}
  {owner : Owner} {now : Nat}

structure Acquired (hold : Hold) (owner : Owner) (location : Location) (before after : Locks) :
    Prop where
  readTs : after.readTs = if hold.reads location then some hold.since else before.readTs
  readRefs : after.readRefs = if hold.reads location then before.readRefs + 1 else before.readRefs
  writeTs : after.writeTs = if hold.writes location then some hold.since else before.writeTs
  writeLockOwner : after.writeLockOwner =
    if hold.writes location then some owner else before.writeLockOwner

structure Released (hold : Hold) (owner : Owner) (location : Location) (before after : Locks) :
    Prop where
  readTs : after.readTs =
    if hold.reads location then (if before.readRefs - 1 = 0 then none else before.readTs)
    else before.readTs
  readRefs : after.readRefs = if hold.reads location then before.readRefs - 1 else before.readRefs
  writeTs : after.writeTs =
    if hold.writes location && before.writeLockOwner = some owner then none else before.writeTs
  writeLockOwner : after.writeLockOwner =
    if hold.writes location && before.writeLockOwner = some owner then none
    else before.writeLockOwner

theorem mem_acquire (member : (location, row) ∈
      (acquireReadLocks (acquireWriteLocks table hold.sid hold.write hold.since owner) hold.sid
        hold.read hold.since).entries) :
    ∃ before, (location, before) ∈ table.entries ∧
      Acquired hold owner location before.toLocks row.toLocks := by
  obtain ⟨middle, inside, rfl⟩ := KeyMap.mem_update.mp member
  obtain ⟨before, original, rfl⟩ := KeyMap.mem_update.mp inside
  refine ⟨before, original, ?_⟩
  cases reads : location.isOf hold.sid hold.read <;>
    cases writes : location.isOf hold.sid hold.write <;>
      constructor <;> simp [Hold.reads, Hold.writes, reads, writes]

theorem mem_release (member : (location, row) ∈
      (releaseReadLocks (releaseWriteLocks table hold.sid hold.write owner) hold.sid
        hold.read).entries) :
    ∃ before, (location, before) ∈ table.entries ∧
      Released hold owner location before.toLocks row.toLocks := by
  obtain ⟨middle, inside, rfl⟩ := KeyMap.mem_update.mp member
  obtain ⟨before, original, rfl⟩ := KeyMap.mem_update.mp inside
  refine ⟨before, original, ?_⟩
  cases reads : location.isOf hold.sid hold.read <;>
    cases writes : location.isOf hold.sid hold.write <;>
      by_cases own : before.writeLockOwner = some owner <;>
        constructor <;> simp [Hold.reads, Hold.writes, reads, writes, own]

end Rows

def Location.Alike (first second : Location) : Prop :=
  first.sid = second.sid ∧ first.fileType = second.fileType

theorem Location.Alike.isOf {first second : Location} (alike : first.Alike second) (sid : SectorId)
    (types : SectorFileType) : first.isOf sid types = second.isOf sid types := by
  rw [Location.isOf, Location.isOf, alike.1, alike.2]

def ShowsFree (state : LockState) (location : Location) (ts : Locks → Option Nat) : Prop :=
  ∃ other row, (other, row) ∈ state.table.entries ∧ other.Alike location ∧
    isLocked state.clock (ts row.toLocks) = false

inductive Changed (state : LockState) : LockAction → LockState → Prop
  | kept {action : LockAction} {table : LocationTable}
      (rows : ∀ location row, (location, row) ∈ table.entries →
        ∃ before, (location, before) ∈ state.table.entries ∧ row.toLocks = before.toLocks) :
      Changed state action { state with table := table }
  | declared {location : Location} {primary : Bool} (new : state.table.get location = none) :
      Changed state (.declare location primary)
        { state with table := state.table.put location { isPrimary := primary } }
  | locked {owner : Owner} (hold : Hold) {scan : List (Location × LocationRow)}
      {table : LocationTable} (unused : state.holds.get owner = none)
      (now : hold.since = state.clock)
      (free : ∀ location row, (location, row) ∈ state.table.entries →
        (hold.writes location = true → ShowsFree state location Locks.writeTs ∧
          ShowsFree state location Locks.readTs) ∧
        (hold.reads location = true → ShowsFree state location Locks.writeTs))
      (rows : ∀ location row, (location, row) ∈ table.entries →
        ∃ before, (location, before) ∈ state.table.entries ∧
          Acquired hold owner location before.toLocks row.toLocks) :
      Changed state (.lock owner hold.sid hold.read hold.write scan)
        { state with table := table, holds := state.holds.put owner hold }
  | unlocked {owner : Owner} {hold : Hold} {table : LocationTable}
      (held : state.holds.get owner = some hold)
      (rows : ∀ location row, (location, row) ∈ table.entries →
        ∃ before, (location, before) ∈ state.table.entries ∧
          Released hold owner location before.toLocks row.toLocks) :
      Changed state (.unlock owner) { state with table := table, holds := state.holds.remove owner }
  | ticked {microseconds : Nat} :
      Changed state (.tick microseconds) { state with clock := state.clock + microseconds }

section Steps

variable {state next : LockState}
variable {location : Location} {sid : SectorId} {scan : List (Location × LocationRow)}
  {owner : Owner}

theorem Changed.refl (action : LockAction) : Changed state action state :=
  .kept fun _ row member => ⟨row, member, rfl⟩

theorem changed_declare {primary : Bool}
    (stepped : state.step (.declare location primary) = some next) :
    Changed state (.declare location primary) next := by
  simp only [LockState.step, storageDeclareSector] at stepped
  cases valid : checkFileType location.fileType with
  | false =>
    rw [valid] at stepped
    cases stepped
    exact .refl _
  | true =>
    rw [valid, if_pos rfl] at stepped
    cases known : state.table.get location with
    | none =>
      rw [known] at stepped
      cases stepped
      exact .declared known
    | some old =>
      simp only [known] at stepped
      split at stepped
      · rename_i table returned
        cases stepped
        refine .kept fun other row member => ?_
        split at returned
        · cases returned
          rcases KeyMap.mem_put.mp member with same | ⟨inside, _⟩
          · cases same
            exact ⟨old, KeyMap.get_eq_some.mp known, rfl⟩
          · exact ⟨row, inside, rfl⟩
        · grind
      grind

theorem changed_drop (stepped : state.step (.drop location) = some next) :
    Changed state (.drop location) next := by
  simp only [LockState.step, storageDropSector] at stepped
  cases valid : checkFileType location.fileType with
  | false =>
    rw [valid] at stepped
    cases stepped
    exact .refl _
  | true =>
    rw [valid] at stepped
    cases stepped
    exact .kept fun other row member => ⟨row, (KeyMap.mem_remove.mp member).1, rfl⟩

theorem isLocked_of_check {now : Nat} {locks : SectorFileType → Locks} {single : FileType} :
    (checkWriteLock now sid locks single = .ok () →
      isLocked now (locks single.bit).writeTs = false ∧
        isLocked now (locks single.bit).readTs = false) ∧
    (checkReadLock now sid locks single = .ok () →
      isLocked now (locks single.bit).writeTs = false) := by
  constructor
  · intro passed
    unfold checkWriteLock at passed
    split at passed
    · cases passed
    · rename_i free
      simpa using free
  · intro passed
    unfold checkReadLock at passed
    split at passed
    · cases passed
    · rename_i free
      simpa using free

theorem scanned_row {asked : SectorFileType} (scanned : scan.Perm (state.selected sid types))
    (part : ∀ fileType, asked.anyOf fileType = true → types.anyOf fileType = true)
    {row : LocationRow} (member : (location, row) ∈ state.table.entries)
    (asks : location.isOf sid asked = true) :
    ∃ single ∈ asked.allSet, ∃ other found, (other, found) ∈ state.table.entries ∧
      other.Alike location ∧ lockMap scan single.bit = found.toLocks := by
  simp only [Location.isOf, Bool.and_eq_true, decide_eq_true_eq] at asks
  obtain ⟨single, set, bit⟩ := SectorFileType.anyOf_eq_true.mp asks.2
  have inside : (location, row) ∈ scan := by
    refine scanned.mem_iff.mpr (mem_filter.mpr ⟨member, ?_⟩)
    simp [Location.isOf, asks.1, part _ asks.2]
  obtain ⟨⟨other, found⟩, here, same, entry⟩ := lockMap_eq_row ⟨_, inside, rfl⟩
  obtain ⟨kept, ofSector⟩ := mem_filter.mp (scanned.mem_iff.mp here)
  simp only [Location.isOf, Bool.and_eq_true, decide_eq_true_eq] at ofSector
  exact ⟨single, set, other, found, kept, ⟨ofSector.1.trans asks.1.symm, same⟩, bit ▸ entry⟩

/-- A lock that is granted saw a free row of every sector file it asked for. -/
theorem lock_eq_ok {table : LocationTable}
    (scanned : scan.Perm (state.selected sid (read ||| write)))
    (granted : lock state.table state.clock sid read write owner scan = .ok (true, table)) :
    table = acquireReadLocks (acquireWriteLocks state.table sid write state.clock owner) sid read
        state.clock ∧
      ∀ location row, (location, row) ∈ state.table.entries →
        (location.isOf sid write = true → ShowsFree state location Locks.writeTs ∧
          ShowsFree state location Locks.readTs) ∧
        (location.isOf sid read = true → ShowsFree state location Locks.writeTs) := by
  unfold lock at granted
  split at granted
  · cases granted
  split at granted
  · cases granted
  obtain ⟨_, writable, granted⟩ := bind_eq_ok.mp granted
  obtain ⟨_, readable, granted⟩ := bind_eq_ok.mp granted
  refine ⟨(Prod.mk.inj (Except.ok.inj granted)).2.symm, ?_⟩
  intro location row member
  constructor
  · intro asked
    obtain ⟨single, set, other, found, inside, alike, entry⟩ :=
      scanned_row scanned (fun _ => SectorFileType.anyOf_or ∘ .inr) member asked
    have free := isLocked_of_check.1 (forEach_eq_ok.mp writable single set)
    rw [entry] at free
    exact ⟨⟨other, found, inside, alike, free.1⟩, other, found, inside, alike, free.2⟩
  · intro asked
    obtain ⟨single, set, other, found, inside, alike, entry⟩ :=
      scanned_row scanned (fun _ => SectorFileType.anyOf_or ∘ .inl) member asked
    have free := isLocked_of_check.2 (forEach_eq_ok.mp readable single set)
    rw [entry] at free
    exact ⟨other, found, inside, alike, free⟩

theorem changed_lock (stepped : state.step (.lock owner sid read write scan) = some next) :
    Changed state (.lock owner sid read write scan) next := by
  simp only [LockState.step] at stepped
  split at stepped
  · rename_i possible
    split at stepped <;> cases stepped
    · rename_i table granted
      obtain ⟨rfl, free⟩ := lock_eq_ok possible.1 granted
      exact .locked ⟨sid, read, write, state.clock⟩ possible.2 rfl free
        fun location row member => mem_acquire member
    · exact .refl _
  · cases stepped

theorem released_nothing {hold : Hold} (nothing : hold.read ||| hold.write = 0) {locks : Locks} :
    Released hold owner location locks locks := by
  obtain ⟨noRead, noWrite⟩ := Nat.or_eq_zero_iff.mp nothing
  have neither : SectorFileType.anyOf 0 location.fileType = false := rfl
  constructor <;> simp [Hold.reads, Hold.writes, Location.isOf, noRead, noWrite, neither]

theorem changed_unlock (stepped : state.step (.unlock owner) = some next) :
    Changed state (.unlock owner) next := by
  simp only [LockState.step] at stepped
  split at stepped
  · cases stepped
  · rename_i hold held
    unfold unlock at stepped
    split at stepped <;> cases stepped
    · rename_i answer table returned
      split at returned
      · rename_i nothing
        cases returned
        exact .unlocked held fun location row member =>
          ⟨row, member, released_nothing nothing⟩
      split at returned <;> cases returned
      exact .unlocked held fun location row member => mem_release member
    · exact .refl _

theorem step_changed (stepped : state.step action = some next) : Changed state action next := by
  cases action with
  | declare location primary => exact changed_declare stepped
  | drop location => exact changed_drop stepped
  | lock owner sid read write scan => exact changed_lock stepped
  | unlock owner => exact changed_unlock stepped
  | tick microseconds =>
    cases stepped
    exact .ticked

end Steps

def readers (holds : KeyMap Owner Hold) (location : Location) : Nat :=
  holds.entries.countP fun held => held.2.reads location

/-- No new location is declared for a file that is locked for reading. -/
def NoNewWhileRead (state : LockState) : LockAction → Prop
  | .declare location _ => state.table.get location = none → readers state.holds location = 0
  | _ => True

/-- A row counts the readers and has a timestamp while there are any. -/
structure CountsReaders (holds : KeyMap Owner Hold) (location : Location) (locks : Locks) :
    Prop where
  refs : locks.readRefs = readers holds location
  null : locks.readTs = none ↔ readers holds location = 0

def KeepsReaders (holds : KeyMap Owner Hold) (location : Location) (locks : Locks) : Prop :=
  ∀ owner hold, (owner, hold) ∈ holds.entries → hold.reads location = true →
    ∃ time, locks.readTs = some time ∧ hold.since ≤ time

variable {holds : KeyMap Owner Hold} {owner : Owner} {hold : Hold} {location : Location}
  {before after : Locks} {state : LockState}

theorem readers_put (unused : holds.get owner = none) (hold : Hold) (location : Location) :
    readers (holds.put owner hold) location =
      readers holds location + if hold.reads location then 1 else 0 := by
  have same : (holds.put owner hold).entries.Perm (holds.entries ++ [(owner, hold)]) :=
    put_perm (Perm.refl _) unused
  rw [readers, same.countP_eq, countP_append, countP_singleton, ← readers]

theorem readers_remove (held : holds.get owner = some hold) (location : Location) :
    readers holds location =
      readers (holds.remove owner) location + if hold.reads location then 1 else 0 := by
  rw [readers, (KeyMap.entries_perm held).countP_eq, countP_cons, ← readers]

section

variable (counts : CountsReaders holds location before)
include counts

theorem CountsReaders.acquired (unused : holds.get owner = none)
    (acquired : Acquired hold owner location before after) :
    CountsReaders (holds.put owner hold) location after := by
  have more := readers_put unused hold location
  cases reads : hold.reads location with
  | false =>
    constructor
    · rw [acquired.readRefs, more, reads]
      exact counts.refs
    · rw [acquired.readTs, more, reads]
      exact counts.null
  | true =>
    constructor
    · rw [acquired.readRefs, more, reads, if_pos rfl, counts.refs]
      push_cast
      rfl
    · rw [acquired.readTs, more, reads, if_pos rfl]
      simp

theorem CountsReaders.released (held : holds.get owner = some hold)
    (released : Released hold owner location before after) :
    CountsReaders (holds.remove owner) location after := by
  have fewer := readers_remove held location
  cases reads : hold.reads location with
  | false =>
    simp only [reads, Bool.false_eq_true, if_false, Nat.add_zero] at fewer
    constructor
    · rw [released.readRefs, ← fewer, reads]
      exact counts.refs
    · rw [released.readTs, ← fewer, reads]
      exact counts.null
  | true =>
    simp only [reads, if_true] at fewer
    have refs := counts.refs
    have some : before.readTs ≠ none := fun missing => by
      have none := counts.null.mp missing
      omega
    constructor
    · rw [released.readRefs, reads, if_pos rfl]
      omega
    · rw [released.readTs, reads, if_pos rfl]
      grind

end

theorem CountsReaders.unread (unread : readers holds location = 0) :
    CountsReaders holds location {} :=
  ⟨by simp [unread], by simp [unread]⟩

def ReadsCounted (state : LockState) : Prop :=
  ∀ location row, (location, row) ∈ state.table.entries →
    CountsReaders state.holds location row.toLocks

theorem ReadsCounted.step {next : LockState} (counted : ReadsCounted state)
    (allowed : NoNewWhileRead state action) (stepped : state.step action = some next) :
    ReadsCounted next := by
  intro location row member
  cases step_changed stepped with
  | kept rows => grind [ReadsCounted]
  | declared new =>
    rcases KeyMap.mem_put.mp member with same | ⟨inside, _⟩
    · cases same
      exact .unread (allowed new)
    · exact counted location row inside
  | locked hold unused now free rows =>
    obtain ⟨before, inside, acquired⟩ := rows location row member
    exact (counted location before inside).acquired unused acquired
  | unlocked held rows =>
    obtain ⟨before, inside, released⟩ := rows location row member
    exact (counted location before inside).released held released
  | ticked => exact counted location row member

theorem LockState.Unlocked.readsCounted (unlocked : state.Unlocked) : ReadsCounted state := by
  intro location row member
  rw [unlocked.1, unlocked.2 location row member]
  exact .unread rfl

/-- Where no new location is declared for a file that is being read, every row counts the readers
of its file, and its timestamp is missing exactly when there are none. -/
theorem read_refs_exact {start final : LockState} {actions : List LockAction}
    (unlocked : start.Unlocked) (under : RunsUnder LockState.step NoNewWhileRead start actions)
    (ran : StepMachine.run LockState.step start actions = some final) {location : Location}
    {row : LocationRow} (member : (location, row) ∈ final.table.entries) :
    0 ≤ row.readRefs ∧ row.readRefs = readers final.holds location ∧
      (row.readTs = none ↔ readers final.holds location = 0) := by
  have counted : ReadsCounted final :=
    run_invariant (fun _ _ _ before => before.step) unlocked.readsCounted under ran
  have here := counted location row member
  exact ⟨here.refs ▸ Int.natCast_nonneg _, here.refs, here.null⟩

def sealedAt (storageId : String) : Location := ⟨⟨1000, 1⟩, FileType.sealed.bit, storageId⟩

def newRow : LocationRow := { isPrimary := true }

def noLocations : LockState := ⟨.empty, 0, .empty⟩

theorem noLocations_unlocked : noLocations.Unlocked :=
  ⟨rfl, fun _ _ member => by cases member⟩

def readSealed (owner : Owner) (rows : List (Location × LocationRow)) : LockAction :=
  .lock owner ⟨1000, 1⟩ FileType.sealed.bit 0 rows

theorem read_refs_exact_two_readers :
    ∃ final row, StepMachine.run LockState.step noLocations
        [.declare (sealedAt "a") true, readSealed "one" [(sealedAt "a", newRow)],
          readSealed "two" [(sealedAt "a", { newRow with readTs := some 0, readRefs := 1 })],
          .unlock "one"] = some final ∧
      (sealedAt "a", row) ∈ final.table.entries ∧ readers final.holds (sealedAt "a") = 1 ∧
      0 ≤ row.readRefs ∧ row.readRefs = readers final.holds (sealedAt "a") ∧
        (row.readTs = none ↔ readers final.holds (sealedAt "a") = 0) := by
  have under : RunsUnder LockState.step NoNewWhileRead noLocations
      [.declare (sealedAt "a") true, readSealed "one" [(sealedAt "a", newRow)],
        readSealed "two" [(sealedAt "a", { newRow with readTs := some 0, readRefs := 1 })],
        .unlock "one"] :=
    ⟨fun _ => rfl, fun _ _ => ⟨trivial, fun _ _ => ⟨trivial, fun _ _ => ⟨trivial,
      fun _ _ => trivial⟩⟩⟩⟩
  exact ⟨_, _, rfl, mem_cons_self, rfl,
    read_refs_exact noLocations_unlocked under rfl mem_cons_self⟩

/-- A location that is declared while another one is read ends with a count of minus one. -/
theorem read_refs_negative :
    ∃ final row, StepMachine.run LockState.step noLocations
        [.declare (sealedAt "a") true, readSealed "one" [(sealedAt "a", newRow)],
          .declare (sealedAt "b") false, .unlock "one"] = some final ∧
      (sealedAt "b", row) ∈ final.table.entries ∧ row.readRefs = -1 ∧
      readers final.holds (sealedAt "b") = 0 :=
  ⟨_, _, rfl, mem_cons_self, rfl, rfl⟩

end Curio.Paths
