import Curio.Paths.LockCounts

/-! Sector locks exclude each other: what a row says about the writers and readers of its file. -/

namespace Curio.Paths

open GoRuntime Entries StepMachine

def Hold.Fresh (hold : Hold) (clock : Nat) : Prop := clock < hold.since + lockTimeOut

instance (hold : Hold) (clock : Nat) : Decidable (hold.Fresh clock) :=
  inferInstanceAs (Decidable (_ < _))

def NoNewWhileHeld (state : LockState) (action : LockAction) : Prop :=
  NoNewWhileRead state action ∧
    match action with
    | .declare location _ => state.table.get location = none →
        ∀ owner hold, (owner, hold) ∈ state.holds.entries → hold.writes location = true →
          ¬ hold.Fresh state.clock
    | _ => True

def KeepsWriters (holds : KeyMap Owner Hold) (clock : Nat) (location : Location) (locks : Locks) :
    Prop :=
  ∀ owner hold, (owner, hold) ∈ holds.entries → hold.writes location = true →
    hold.Fresh clock → locks.writeTs = some hold.since ∧ locks.writeLockOwner = some owner

/-- No reader beside a writer, both not timed out. -/
def Apart (holds : KeyMap Owner Hold) (clock : Nat) (location : Location) : Prop :=
  ∀ writer writing reader reading, (writer, writing) ∈ holds.entries →
    (reader, reading) ∈ holds.entries → writer ≠ reader → writing.Fresh clock →
    reading.Fresh clock → writing.writes location = true → reading.reads location = false

structure RowSound (state : LockState) (location : Location) (locks : Locks) : Prop where
  readers : CountsReaders state.holds location locks
  recent : KeepsReaders state.holds location locks
  writers : KeepsWriters state.holds state.clock location locks
  apart : Apart state.holds state.clock location

structure LocksSound (state : LockState) : Prop where
  timed : ∀ owner hold, (owner, hold) ∈ state.holds.entries → hold.since ≤ state.clock
  rows : ∀ location row, (location, row) ∈ state.table.entries → RowSound state location row.toLocks

variable {state : LockState} {owner : Owner} {hold : Hold} {location : Location}
  {before after : Locks}

theorem isLocked_of_fresh {clock time : Nat} (fresh : hold.Fresh clock) (later : hold.since ≤ time) :
    isLocked clock (some time) = true := by
  grind [Hold.Fresh, isLocked]

section

variable (sound : LocksSound state)
include sound

theorem LocksSound.not_writing (free : ShowsFree state location Locks.writeTs)
    (held : (owner, hold) ∈ state.holds.entries) (fresh : hold.Fresh state.clock) :
    hold.writes location = false := by
  obtain ⟨other, row, member, alike, unlocked⟩ := free
  by_contra writes
  have same : hold.writes other = true :=
    (alike.isOf _ _).trans (Bool.eq_true_of_not_eq_false writes)
  have named := ((sound.rows other row member).writers owner hold held same fresh).1
  rw [named, isLocked_of_fresh fresh (le_refl _)] at unlocked
  cases unlocked

theorem LocksSound.not_reading (free : ShowsFree state location Locks.readTs)
    (held : (owner, hold) ∈ state.holds.entries) (fresh : hold.Fresh state.clock) :
    hold.reads location = false := by
  obtain ⟨other, row, member, alike, unlocked⟩ := free
  by_contra reads
  have same : hold.reads other = true :=
    (alike.isOf _ _).trans (Bool.eq_true_of_not_eq_false reads)
  obtain ⟨time, stamped, later⟩ := (sound.rows other row member).recent owner hold held same
  rw [stamped, isLocked_of_fresh fresh later] at unlocked
  cases unlocked

theorem LocksSound.locked (unused : state.holds.get owner = none)
    (now : hold.since = state.clock)
    (free : (hold.writes location = true → ShowsFree state location Locks.writeTs ∧
        ShowsFree state location Locks.readTs) ∧
      (hold.reads location = true → ShowsFree state location Locks.writeTs))
    (row : RowSound state location before) (acquired : Acquired hold owner location before after)
    (table : LocationTable) :
    RowSound { state with table := table, holds := state.holds.put owner hold } location after := by
  refine ⟨row.readers.acquired unused acquired, ?_, ?_, ?_⟩
  · intro other holding member reads
    rw [acquired.readTs]
    rcases KeyMap.mem_put.mp member with same | ⟨inside, _⟩
    · cases same
      exact ⟨_, if_pos reads, le_refl _⟩
    · split
      · exact ⟨_, rfl, now ▸ sound.timed other holding inside⟩
      · exact row.recent other holding inside reads
  · intro other holding member writes fresh
    rw [acquired.writeTs, acquired.writeLockOwner]
    rcases KeyMap.mem_put.mp member with same | ⟨inside, _⟩
    · grind
    · cases taken : hold.writes location with
      | false => exact row.writers other holding inside writes fresh
      | true =>
        have none := sound.not_writing (free.1 taken).1 inside fresh
        rw [none] at writes
        cases writes
  · intro writer writing reader reading heldWrite heldRead differ freshWrite freshRead writes
    rcases KeyMap.mem_put.mp heldWrite with same | ⟨oldWrite, _⟩
    · cases same
      rcases KeyMap.mem_put.mp heldRead with again | ⟨oldRead, _⟩
      · exact absurd (Prod.mk.inj again).1.symm differ
      · exact sound.not_reading (free.1 writes).2 oldRead freshRead
    · rcases KeyMap.mem_put.mp heldRead with same | ⟨oldRead, _⟩
      · cases same
        by_contra reads
        have none := sound.not_writing (free.2 (Bool.eq_true_of_not_eq_false reads)) oldWrite
          freshWrite
        rw [none] at writes
        cases writes
      · exact row.apart writer writing reader reading oldWrite oldRead differ freshWrite freshRead
          writes

end

theorem RowSound.unlocked (row : RowSound state location before)
    (held : state.holds.get owner = some hold)
    (released : Released hold owner location before after) (table : LocationTable) :
    RowSound { state with table := table, holds := state.holds.remove owner } location after := by
  have counts := row.readers.released held released
  refine ⟨counts, ?_, ?_, ?_⟩
  · intro other holding member reads
    obtain ⟨inside, _⟩ := KeyMap.mem_remove.mp member
    obtain ⟨time, stamped, later⟩ := row.recent other holding inside reads
    refine ⟨time, ?_, later⟩
    -- the other reader is still counted, so the count does not reach zero
    have left : 0 < Paths.readers (state.holds.remove owner) location :=
      List.countP_pos_iff.mpr ⟨(other, holding), member, reads⟩
    have refs := counts.refs
    rw [released.readRefs] at refs
    rw [released.readTs]
    split
    · grind
    · exact stamped
  · intro other holding member writes fresh
    obtain ⟨inside, differ⟩ := KeyMap.mem_remove.mp member
    obtain ⟨stamped, named⟩ := row.writers other holding inside writes fresh
    have foreign : ¬ (hold.writes location && before.writeLockOwner = some owner) = true := by
      grind
    rw [released.writeTs, released.writeLockOwner, if_neg foreign, if_neg foreign]
    exact ⟨stamped, named⟩
  · intro writer writing reader reading heldWrite heldRead
    exact row.apart writer writing reader reading (KeyMap.mem_remove.mp heldWrite).1
      (KeyMap.mem_remove.mp heldRead).1

theorem RowSound.later (row : RowSound state location before) (microseconds : Nat) :
    RowSound { state with clock := state.clock + microseconds } location before := by
  have earlier : ∀ holding : Hold, holding.Fresh (state.clock + microseconds) →
      holding.Fresh state.clock := by
    intro holding fresh
    unfold Hold.Fresh at *
    omega
  refine ⟨row.readers, row.recent, ?_, ?_⟩
  · intro other holding member writes fresh
    exact row.writers other holding member writes (earlier holding fresh)
  · intro writer writing reader reading heldWrite heldRead differ freshWrite freshRead
    exact row.apart writer writing reader reading heldWrite heldRead differ
      (earlier writing freshWrite) (earlier reading freshRead)

theorem RowSound.declared (unread : Paths.readers state.holds location = 0)
    (unwritten : ∀ owner hold, (owner, hold) ∈ state.holds.entries →
      hold.writes location = true → ¬ hold.Fresh state.clock) : RowSound state location {} := by
  have noReader : ∀ owner hold, (owner, hold) ∈ state.holds.entries →
      hold.reads location = false := by
    intro other holding member
    simpa using List.countP_eq_zero.mp unread (other, holding) member
  refine ⟨.unread unread, ?_, ?_, ?_⟩
  · intro other holding member reads
    grind
  · intro other holding member writes fresh
    exact absurd fresh (unwritten other holding member writes)
  · intro writer writing reader reading _ heldRead _ _ _ _
    exact noReader reader reading heldRead

theorem LocksSound.step {next : LockState} {action : LockAction} (sound : LocksSound state)
    (allowed : NoNewWhileHeld state action) (stepped : state.step action = some next) :
    LocksSound next := by
  cases step_changed stepped with
  | kept rows =>
    refine ⟨sound.timed, fun location row member => ?_⟩
    obtain ⟨before, inside, same⟩ := rows location row member
    have kept := sound.rows location before inside
    rw [same]
    exact { kept with }
  | declared new =>
    refine ⟨sound.timed, fun location row member => ?_⟩
    rcases KeyMap.mem_put.mp member with same | ⟨inside, _⟩
    · cases same
      have made := RowSound.declared (allowed.1 new) (allowed.2 new)
      exact { made with }
    · have kept := sound.rows location row inside
      exact { kept with }
  | locked hold unused now free rows =>
    constructor
    · intro other holding member
      rcases KeyMap.mem_put.mp member with same | ⟨inside, _⟩
      · cases same
        exact now.le
      · exact sound.timed other holding inside
    · intro location row member
      obtain ⟨before, inside, acquired⟩ := rows location row member
      exact sound.locked unused now (free location before inside)
        (sound.rows location before inside) acquired _
  | unlocked held rows =>
    constructor
    · intro other holding member
      exact sound.timed other holding (KeyMap.mem_remove.mp member).1
    · intro location row member
      obtain ⟨before, inside, released⟩ := rows location row member
      exact (sound.rows location before inside).unlocked held released _
  | ticked =>
    constructor
    · intro other holding member
      exact (sound.timed other holding member).trans (Nat.le_add_right _ _)
    · intro location row member
      exact (sound.rows location row member).later _

theorem LockState.Unlocked.locksSound (unlocked : state.Unlocked) : LocksSound state := by
  have nobody : ∀ owner hold, (owner, hold) ∉ state.holds.entries := by
    intro owner hold member
    rw [unlocked.1] at member
    cases member
  refine ⟨fun owner hold member => absurd member (nobody owner hold), ?_⟩
  intro location row member
  rw [unlocked.2 location row member]
  refine RowSound.declared ?_ fun owner hold held => absurd held (nobody owner hold)
  rw [unlocked.1]
  rfl

/-- Where no new location is declared for a file while it is locked, no other lock stands beside a
write lock on a file that has a location, as long as neither has timed out. -/
theorem sector_locks_exclude {start final : LockState} {actions : List LockAction}
    (unlocked : start.Unlocked) (under : RunsUnder LockState.step NoNewWhileHeld start actions)
    (ran : StepMachine.run LockState.step start actions = some final) {location : Location}
    {row : LocationRow} (declared : final.table.get location = some row) (first second : Owner)
    {holding other : Hold} (held : final.holds.get first = some holding)
    (heldToo : final.holds.get second = some other) (differ : first ≠ second)
    (fresh : holding.Fresh final.clock) (freshToo : other.Fresh final.clock) :
    ¬ (holding.writes location = true ∧
      (other.writes location = true ∨ other.reads location = true)) := by
  have sound : LocksSound final :=
    run_invariant (fun _ _ _ before => before.step) unlocked.locksSound under ran
  have here := sound.rows location row (KeyMap.get_eq_some.mp declared)
  have inside := KeyMap.get_eq_some.mp held
  have insideToo := KeyMap.get_eq_some.mp heldToo
  rintro ⟨writes, writesToo | reads⟩
  · have named := (here.writers first holding inside writes fresh).2
    have namedToo := (here.writers second other insideToo writesToo freshToo).2
    exact differ (Option.some.inj (named.symm.trans namedToo))
  · have none := here.apart first holding second other inside insideToo differ fresh freshToo writes
    rw [none] at reads
    cases reads

def writeSealed (owner : Owner) (rows : List (Location × LocationRow)) : LockAction :=
  .lock owner ⟨1000, 1⟩ 0 FileType.sealed.bit rows

/-- Two read the sealed file, and one of them writes the cache. -/
def readTwice : List LockAction :=
  [.declare (sealedAt "a") true,
    .lock "one" ⟨1000, 1⟩ FileType.sealed.bit FileType.cache.bit [(sealedAt "a", newRow)],
    .lock "two" ⟨1000, 1⟩ FileType.sealed.bit 0
      [(sealedAt "a", { newRow with readTs := some 0, readRefs := 1 })]]

theorem sector_locks_exclude_two_files :
    ∃ final holding other, StepMachine.run LockState.step noLocations readTwice = some final ∧
      final.holds.get "one" = some holding ∧ final.holds.get "two" = some other ∧
      (holding.reads (sealedAt "a") = true ∧ other.reads (sealedAt "a") = true) ∧
      ¬ (holding.writes (sealedAt "a") = true ∧
        (other.writes (sealedAt "a") = true ∨ other.reads (sealedAt "a") = true)) := by
  have under : RunsUnder LockState.step NoNewWhileHeld noLocations readTwice :=
    ⟨⟨fun _ => rfl, fun _ _ _ member => by cases member⟩, fun _ _ => ⟨⟨trivial, trivial⟩,
      fun _ _ => ⟨⟨trivial, trivial⟩, fun _ _ => trivial⟩⟩⟩
  exact ⟨_, _, _, rfl, rfl, rfl, ⟨rfl, rfl⟩,
    sector_locks_exclude noLocations_unlocked under rfl rfl "one" "two" rfl rfl (by decide)
      (by decide) (by decide)⟩

/-- A location that is declared while another one is locked lets a second writer in. -/
theorem two_writers :
    ∃ final holding other, StepMachine.run LockState.step noLocations
        [.declare (sealedAt "a") true, writeSealed "one" [(sealedAt "a", newRow)],
          .declare (sealedAt "b") false,
          writeSealed "two" [(sealedAt "a", { newRow with
              writeTs := some 0, writeLockOwner := some "one" }),
            (sealedAt "b", { newRow with isPrimary := false })]] = some final ∧
      final.holds.get "one" = some holding ∧ final.holds.get "two" = some other ∧
      holding.writes (sealedAt "a") = true ∧ other.writes (sealedAt "a") = true ∧
      (final.table.get (sealedAt "a")).isSome = true ∧
      holding.Fresh final.clock ∧ other.Fresh final.clock :=
  ⟨_, _, _, rfl, rfl, rfl, rfl, rfl, rfl, by decide, by decide⟩

end Curio.Paths
