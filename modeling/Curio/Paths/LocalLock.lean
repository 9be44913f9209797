import Curio.Paths.Reserve
import Curio.StepMachine

/-! `localLk` of `lib/paths/local.go`: the methods of `Local` that take it, and how each of them
gives it back.

A method that defers its unlocking may return anywhere, so what `AcquireSector`, `Local` and
`OpenPath` do is left open; the first may also return before it takes the lock. `order` is the
order in which a method comes upon the registered paths. -/

namespace Curio.Paths.LocalLock

open GoRuntime StepMachine List

structure RWMutex where
  readers : Nat := 0
  writer : Bool := false

structure LocalState where
  localLk : RWMutex
  paths : PathMap
  allowTypes : String → List String
  denyTypes : String → List String

abbrev Method (α : Type) := LocalState → Go (α × LocalState)

variable (st : LocalState)

def rLock : Go LocalState :=
  if st.localLk.writer then .error .hang
  else .ok { st with localLk := ⟨st.localLk.readers + 1, false⟩ }

def rUnlock : Go LocalState :=
  if st.localLk.readers = 0 then panics "sync: RUnlock of unlocked RWMutex"
  else .ok { st with localLk := ⟨st.localLk.readers - 1, st.localLk.writer⟩ }

def lock : Go LocalState :=
  if st.localLk.writer ∨ st.localLk.readers ≠ 0 then .error .hang
  else .ok { st with localLk := ⟨0, true⟩ }

def unlock : Go LocalState :=
  if st.localLk.writer then .ok { st with localLk := ⟨st.localLk.readers, false⟩ }
  else panics "sync: Unlock of unlocked RWMutex"

variable {α β : Type} {method : Method α}

def readLocked (body : LocalState → α) : Method α := fun st => do
  let st ← rLock st
  let unlocked ← rUnlock st
  return (body st, unlocked)

def writeLocked (body : LocalState → α × LocalState) : Method α := fun st => do
  let st ← lock st
  let unlocked ← unlock { (body st).2 with localLk := st.localLk }
  return ((body st).1, unlocked)

def typeFromString (text : String) : Option FileType :=
  FileType.pathTypes.find? fun fileType => fileType.name = text

def subAllowed (types : SectorFileType) (allowTypes denyTypes : List String) : SectorFileType :=
  let denyMask := if allowTypes = [] then 0
    else (allowTypes.filterMap typeFromString).foldl (fun denyMask fileType =>
      denyMask &&& complement fileType.bit) (complement 0)
  types &&& (denyTypes.filterMap typeFromString).foldl (fun denyMask fileType =>
    denyMask ||| fileType.bit) denyMask

def registered (order : List String) : List (String × Path) :=
  order.filterMap fun id => (st.paths id).map (Prod.mk id)

/-- A path that `ExistingLocalFile` does not pass over. -/
def candidate (fileType : FileType) (entry : String × Path) : Bool :=
  entry.2.localDir ≠ "" &&
    subAllowed fileType.bit (st.allowTypes entry.1) (st.denyTypes entry.1) = 0

/-- The loop of `ExistingLocalFile`: nothing where it returns at the fifth candidate. -/
def collect (file : SectorFile) : List (String × Path) → List String → Option (List String)
  | [], candidates => some candidates
  | entry :: rest, candidates =>
    if candidate st file.fileType entry then
      if (candidates ++ [entry.2.sectorPath file]).length ≥ 5 then none
      else collect file rest (candidates ++ [entry.2.sectorPath file])
    else collect file rest candidates

def existingLocalFile (file : SectorFile) (isFile : String → Bool) (order : List String) :
    Method (Option String) := fun st => do
  let st ← rLock st
  match collect st file (registered st order) [] with
  -- `return "", false`, with the lock still taken
  | none => return (none, st)
  | some candidates =>
    let unlocked ← rUnlock st
    return (candidates.find? isFile, unlocked)

def release : List Reservation → Method Unit
  | [], st => .ok ((), st)
  | reservation :: rest, st => do
    let (_, st) ← writeLocked (fun st => ((), { st with paths := st.paths.release reservation })) st
    release rest st

/-- The deferred function, behind its `Unlock`. -/
def deferred : List Reservation × Option Fault → Method (Go (List Reservation))
  | (added, none), st => .ok (.ok added, st)
  | (added, some fault), st => do
    let (_, st) ← release added st
    return (.error fault, st)

def reserve (call : ReserveCall) (disks : FileType → Disk) : Method (Go (List Reservation)) :=
  fun st =>
  match call.sectorSize with
  | .error message => .ok (fail message, st)
  | .ok ssize => do
    let (result, st) ← writeLocked (fun st =>
      let (paths, result) := reserveFiles disks call ssize call.types.allSet st.paths
      (result, { st with paths })) st
    deferred result st

def closePath (id : String) (detach : Call Unit) : Method (Call Unit) :=
  writeLocked fun st =>
    match st.paths id, detach with
    | none, _ => (.error s!"path with ID {id} isn't opened", st)
    | some _, .error message => (.error message, st)
    | some _, .ok _ =>
      (.ok (), { st with paths := fun other => if other = id then none else st.paths other })

def redeclare (filterId : Option String) (disk : Disk) (order : List String)
    (declare : List (String × FsStat) → Call Unit) : Method (Go Unit) := fun st => do
  let st ← rLock st
  let chosen := (registered st order).filter fun entry => filterId.all (· = entry.1)
  match chosen.mapM fun entry => (entry.2.stat disk []).map fun stat => (entry.1, stat.1) with
  | .error fault =>
    let unlocked ← rUnlock st
    return (.error fault, unlocked)
  | .ok toProcess =>
    let unlocked ← rUnlock st
    return (ofCall (declare toProcess), unlocked)

def after (method : Method α) (st : LocalState) : Option LocalState :=
  match method st with
  | .ok (_, next) => some next
  | .error _ => none

/-- Fewer than five registered paths may hold a file of the type that is looked for. -/
def Few (file : SectorFile) (order : List String) (st : LocalState) : Prop :=
  (registered st order).countP (candidate st file.fileType) < 5

/-- The methods that take the lock, each with the states in which it gives it back. -/
inductive LocalCall : (LocalState → Option LocalState) → (LocalState → Prop) → Prop
  | existingLocalFile (file : SectorFile) (isFile : String → Bool) (order : List String) :
      LocalCall (after (existingLocalFile file isFile order)) (Few file order)
  | acquireSector (found : LocalState → Call (SectorPaths × SectorPaths)) :
      LocalCall (after (readLocked found)) fun _ => True
  | reserve (call : ReserveCall) (disks : FileType → Disk) :
      LocalCall (after (reserve call disks)) fun _ => True
  | release (added : List Reservation) : LocalCall (after (release added)) fun _ => True
  | fsStat (id : String) (disk : Disk) : LocalCall (after (readLocked fun st =>
      match st.paths id with
      | none => fail "fsstat: path not found"
      | some p => p.stat disk [])) fun _ => True
  | listPaths (found : LocalState → Call (List (String × String))) :
      LocalCall (after (readLocked found)) fun _ => True
  | openPath (opened : LocalState → Call Unit × LocalState) :
      LocalCall (after (writeLocked opened)) fun _ => True
  | closePath (id : String) (detach : Call Unit) :
      LocalCall (after (closePath id detach)) fun _ => True
  | redeclare (filterId : Option String) (disk : Disk) (order : List String)
      (declare : List (String × FsStat) → Call Unit) :
      LocalCall (after (redeclare filterId disk order declare)) fun _ => True
  | reportStorage (disk : Disk) (order : List String) : LocalCall (after (readLocked fun st =>
      (registered st order).map fun entry => (entry.1, entry.2.stat disk []))) fun _ => True

/-- The method gives back what it takes; it hangs only where somebody else has the lock. -/
def Keeps (method : Method α) (st : LocalState) : Prop :=
  (∃ out next, method st = .ok (out, next) ∧ next.localLk = st.localLk) ∨
    st.localLk ≠ {} ∧ method st = .error .hang

section Rules

variable {st : LocalState}

theorem keeps_return (out : α) : Keeps (fun st => .ok (out, st)) st := .inl ⟨out, st, rfl, rfl⟩

theorem Keeps.bind {rest : α → Method β} (first : Keeps method st)
    (second : ∀ out next, Keeps (rest out) next) :
    Keeps (fun st => method st >>= fun result => rest result.1 result.2) st := by
  rcases first with ⟨out, middle, ran, same⟩ | ⟨held, hung⟩
  · simp only [Keeps, ran, ← same]
    exact second out middle
  · exact .inr ⟨held, by simp only [hung, error_bind]⟩

/-- Behind `RLock`, the way out goes through `RUnlock`. -/
theorem keeps_read {rest : Method α} (through : ∀ taken : LocalState,
      taken = { st with localLk := taken.localLk } →
      ∃ out, rest taken = rUnlock taken >>= fun unlocked => .ok (out, unlocked)) :
    Keeps (fun st => rLock st >>= rest) st := by
  obtain ⟨⟨readers, writer⟩, paths, allowTypes, denyTypes⟩ := st
  cases writer with
  | true => exact .inr ⟨by simp, rfl⟩
  | false =>
    obtain ⟨out, same⟩ := through ⟨⟨readers + 1, false⟩, paths, allowTypes, denyTypes⟩ rfl
    exact .inl ⟨out, _, same, rfl⟩

theorem keeps_readLocked {body : LocalState → α} : Keeps (readLocked body) st :=
  keeps_read fun taken _ => ⟨body taken, rfl⟩

theorem keeps_writeLocked (body : LocalState → α × LocalState) : Keeps (writeLocked body) st := by
  obtain ⟨⟨readers, writer⟩, paths, allowTypes, denyTypes⟩ := st
  by_cases free : readers = 0 ∧ writer = false
  · obtain ⟨rfl, rfl⟩ := free
    exact .inl ⟨_, _, rfl, rfl⟩
  · have taken : writer = true ∨ readers ≠ 0 := by grind
    refine .inr ⟨by grind, ?_⟩
    simp only [writeLocked, lock, if_pos taken, error_bind]

theorem keeps_release (added : List Reservation) (st : LocalState) : Keeps (release added) st := by
  induction added generalizing st with
  | nil => exact keeps_return ()
  | cons reservation rest ih => exact (keeps_writeLocked _).bind fun _ => ih

theorem keeps_reserve (call : ReserveCall) (disks : FileType → Disk) :
    Keeps (reserve call disks) st := by
  unfold reserve
  split
  · exact keeps_return _
  · refine (keeps_writeLocked _).bind fun result next => ?_
    match result with
    | (added, none) => exact keeps_return _
    | (added, some fault) => exact (keeps_release added next).bind fun _ _ => keeps_return _

theorem keeps_redeclare {filterId : Option String} {disk : Disk} {order : List String}
    {declare : List (String × FsStat) → Call Unit} :
    Keeps (redeclare filterId disk order declare) st := by
  refine keeps_read fun taken _ => ?_
  dsimp only
  split
  · exact ⟨_, rfl⟩
  · exact ⟨_, rfl⟩

end Rules

section Candidates

variable (st : LocalState) (file : SectorFile) (isFile : String → Bool) (order : List String)

theorem collect_eq_none {found : List (String × Path)} {candidates : List String}
    (few : candidates.length < 5) : collect st file found candidates = none ↔
      5 ≤ candidates.length + found.countP (candidate st file.fileType) := by
  induction found generalizing candidates with
  | nil => simpa [collect] using few
  | cons entry rest ih =>
    rw [collect, countP_cons]
    split
    · split
      · grind
      · rw [ih (by grind), length_append, length_singleton]
        omega
    · rw [ih few]
      rfl

variable {st file isFile order}

theorem keeps_existingLocalFile (few : Few file order st) :
    Keeps (existingLocalFile file isFile order) st := by
  refine keeps_read fun taken same => ?_
  have enough : collect taken file (registered taken order) [] ≠ none := by
    rw [same, Ne, collect_eq_none _ _ (by simp), length_nil, zero_add, not_le]
    exact few
  obtain ⟨candidates, collected⟩ := Option.ne_none_iff_exists'.mp enough
  rw [collected]
  exact ⟨_, rfl⟩

theorem existingLocalFile_leaks (many : ¬Few file order st) {out : Option String}
    {next : LocalState} (ran : existingLocalFile file isFile order st = .ok (out, next)) :
    next.localLk ≠ st.localLk := by
  obtain ⟨taken, locked, left⟩ := bind_eq_ok.mp ran
  have same : taken = { st with localLk := ⟨st.localLk.readers + 1, false⟩ } := by
    unfold rLock at locked
    grind
  have full : collect taken file (registered taken order) [] = none := by
    rw [same, collect_eq_none _ _ (by simp), length_nil, zero_add]
    exact not_lt.mp many
  rw [full] at left
  obtain rfl : taken = next := congrArg Prod.snd (Except.ok.inj left)
  rw [same]
  exact fun equal => by simpa using congrArg RWMutex.readers equal

theorem after_keeps (keeps : Keeps method st) :
    (∃ next, after method st = some next ∧ next.localLk = st.localLk) ∨
      st.localLk ≠ {} ∧ after method st = none := by
  unfold after
  rcases keeps with ⟨out, next, ran, same⟩ | ⟨held, hung⟩
  · exact .inl ⟨next, by rw [ran], same⟩
  · exact .inr ⟨held, by rw [hung]⟩

theorem LocalCall.keeps {call : LocalState → Option LocalState} {few : LocalState → Prop}
    (isCall : LocalCall call few) (holds : few st) :
    (∃ next, call st = some next ∧ next.localLk = st.localLk) ∨
      st.localLk ≠ {} ∧ call st = none := by
  cases isCall with
  | existingLocalFile file isFile order => exact after_keeps (keeps_existingLocalFile holds)
  | reserve call disks => exact after_keeps (keeps_reserve call disks)
  | release added => exact after_keeps (keeps_release added st)
  | redeclare filterId disk order declare => exact after_keeps keeps_redeclare
  | openPath opened => exact after_keeps (keeps_writeLocked opened)
  | closePath id detach => exact after_keeps (keeps_writeLocked _)
  | acquireSector found => exact after_keeps keeps_readLocked
  | fsStat id disk => exact after_keeps keeps_readLocked
  | listPaths found => exact after_keeps keeps_readLocked
  | reportStorage disk order => exact after_keeps keeps_readLocked

end Candidates

/-- A call that returns gives the lock back exactly where `ExistingLocalFile` does not come upon a
fifth candidate; where none does, every call of a sequence returns. -/
theorem localLk_kept_iff (start : LocalState) (calls : List (LocalState → Option LocalState)) :
    (∀ call few, LocalCall call few → ∀ st next, call st = some next →
      (next.localLk = st.localLk ↔ few st)) ∧
    (start.localLk = {} → RunsUnder (fun st call => call st)
        (fun st call => ∃ few, LocalCall call few ∧ few st) start calls →
      ∃ final, run (fun st call => call st) start calls = some final ∧ final.localLk = {}) := by
  constructor
  · intro call few isCall st next returned
    constructor
    · intro same
      by_contra many
      cases isCall with
      | existingLocalFile file isFile order =>
        cases ran : existingLocalFile file isFile order st with
        | error fault => simp [after, ran] at returned
        | ok result =>
          obtain rfl : result.2 = next := by simpa [after, ran] using returned
          exact existingLocalFile_leaks many ran same
      | _ => exact many trivial
    · intro holds
      rcases isCall.keeps holds with ⟨reached, ran, same⟩ | ⟨-, hung⟩
      · exact Option.some.inj (ran.symm.trans returned) ▸ same
      · simp [hung] at returned
  · intro free under
    induction calls generalizing start with
    | nil => exact ⟨start, rfl, free⟩
    | cons call rest ih =>
      obtain ⟨few, isCall, holds⟩ := under.1
      rcases isCall.keeps holds with ⟨next, ran, same⟩ | ⟨held, -⟩
      · obtain ⟨final, reached, unlocked⟩ := ih next (same.trans free) (under.2 next ran)
        exact ⟨final, (run_cons _).mpr ⟨next, ran, reached⟩, unlocked⟩
      · exact absurd free held

def stores (ids : List String) : LocalState where
  localLk := {}
  paths id := if id ∈ ids then some ⟨"/" ++ id, 0, 0, .empty⟩ else none
  allowTypes _ := []
  denyTypes _ := []

/-- After a look at five paths nothing can be reserved any more. -/
theorem five_stores_locked :
    ∃ next, after (existingLocalFile ⟨⟨1000, 1⟩, .sealed⟩ (fun _ => false)
        ["a", "b", "c", "d", "e"]) (stores ["a", "b", "c", "d", "e"]) = some next ∧
      next.localLk.readers = 1 ∧
      ∀ call ssize disks, call.sectorSize = .ok ssize → after (reserve call disks) next = none := by
  refine ⟨_, rfl, rfl, ?_⟩
  intro call ssize disks sized
  simp only [after, reserve, sized]
  rfl

end Curio.Paths.LocalLock
