import Curio.StepMachine

/-! The readers of a local file in `lib/paths/remote.go`: they share one open file, which
`cleanupIdle` closes when no reader has been in use for a while, and the getter opens again.

A step is what happens under `refsLk`. A reader is closed once. -/

namespace Curio.Paths

open List StepMachine

structure Lent where
  handle : Nat
  start : Nat
  stop : Nat
  closed : Bool
  deriving DecidableEq

structure FileGetter where
  f : Option Nat
  /-- Files opened so far. -/
  opened : Nat
  refs : Int
  /-- `lastRefs` of every `cleanupIdle` that runs. -/
  cleaners : List Int
  readers : List Lent
  deriving DecidableEq

variable {lent : Lent} {stop : Nat}

namespace FileGetter

inductive Use where
  | read (start stop : Nat)
  | close (reader : Nat)
  | tick (cleaner : Nat)
  deriving DecidableEq

def unopened : FileGetter := ⟨none, 0, 0, [], []⟩

def kept : FileGetter := ⟨some 0, 1, 0, [], []⟩

def getFile (g : FileGetter) : FileGetter × Nat :=
  match g.f with
  | some handle => ({ g with refs := g.refs + 1 }, handle)
  | none =>
    ({ g with f := some g.opened, opened := g.opened + 1, refs := g.refs + 1,
              cleaners := g.cleaners ++ [1] }, g.opened)

def read (g : FileGetter) (start stop : Nat) : FileGetter :=
  let (got, handle) := g.getFile
  { got with readers := got.readers ++ [⟨handle, start, stop, false⟩] }

def step (g : FileGetter) : Use → Option FileGetter
  | .read start stop => some (g.read start stop)
  | .close reader =>
    match g.readers[reader]? with
    | some ⟨handle, start, stop, false⟩ =>
      some { g with refs := g.refs - 1,
                    readers := g.readers.set reader ⟨handle, start, stop, true⟩ }
    | _ => none
  | .tick cleaner =>
    match g.cleaners[cleaner]? with
    | none => none
    | some lastRefs =>
      if g.refs = 0 ∧ lastRefs = 0 ∧ g.f.isSome = true then
        some { g with f := none, cleaners := g.cleaners.eraseIdx cleaner }
      else some { g with cleaners := g.cleaners.set cleaner g.refs }

def isClosed (g : FileGetter) (reader : Nat) : Bool := (g.readers[reader]?).any Lent.closed

def readAll (g : FileGetter) (file : List UInt8) (offset reader : Nat) : Option (List UInt8) :=
  match g.readers[reader]? with
  | none => none
  | some lent =>
    if g.f = some lent.handle then
      some ((file.drop (offset + lent.start)).take (lent.stop - lent.start))
    else none

structure Tended (g : FileGetter) : Prop where
  counted : g.refs = (g.readers.countP fun lent => !lent.closed)
  inUse : ∀ lent ∈ g.readers, lent.closed = false → g.f = some lent.handle

theorem tended_unopened : Tended unopened := ⟨rfl, by simp [unopened]⟩

theorem tended_kept : Tended kept := ⟨rfl, by simp [kept]⟩

theorem read_lends (g : FileGetter) (start stop : Nat) :
    ∃ handle, (g.read start stop).f = some handle ∧ (∀ held, g.f = some held → held = handle) ∧
      (g.read start stop).refs = g.refs + 1 ∧
      (g.read start stop).readers = g.readers ++ [⟨handle, start, stop, false⟩] := by
  cases found : g.f with
  | some held => exact ⟨held, by simp [read, getFile, found]⟩
  | none => exact ⟨g.opened, by simp [read, getFile, found]⟩

theorem Tended.read {g : FileGetter} (tended : Tended g) (start stop : Nat) :
    Tended (g.read start stop) := by
  obtain ⟨handle, opened, same, counted, lent⟩ := g.read_lends start stop
  constructor
  · rw [counted, lent, tended.counted]
    simp
  · intro other member used
    rw [lent, mem_append, mem_singleton] at member
    rw [opened]
    rcases member with earlier | rfl
    · rw [same _ (tended.inUse other earlier used)]
    · rfl

variable {reader : Nat} {g next : FileGetter} {use : Use}

theorem step_close (stepped : g.step (.close reader) = some next) :
    ∃ lent, g.readers[reader]? = some lent ∧ lent.closed = false ∧
      next = { g with refs := g.refs - 1,
                      readers := g.readers.set reader { lent with closed := true } } := by
  grind [step]

theorem step_tick {cleaner : Nat} (stepped : g.step (.tick cleaner) = some next) :
    next.refs = g.refs ∧ next.readers = g.readers ∧ (next.f = g.f ∨ g.refs = 0) := by
  grind [step]

section

variable (tended : Tended g)
include tended

theorem Tended.close (found : g.readers[reader]? = some lent) (used : lent.closed = false) :
    Tended { g with refs := g.refs - 1,
                    readers := g.readers.set reader { lent with closed := true } } := by
  obtain ⟨inside, here⟩ := List.getElem?_eq_some_iff.mp found
  constructor
  · have one : 0 < g.readers.countP fun lent => !lent.closed :=
      countP_pos_iff.mpr ⟨lent, mem_of_getElem? found, by simp [used]⟩
    simp only [tended.counted]
    grind
  · intro other member stillUsed
    rcases mem_or_eq_of_mem_set member with earlier | rfl
    · exact tended.inUse other earlier stillUsed
    · cases stillUsed

theorem Tended.tick (counted : next.refs = g.refs) (same : next.readers = g.readers)
    (idle : next.f = g.f ∨ g.refs = 0) : Tended next := by
  constructor
  · rw [counted, same]
    exact tended.counted
  · intro lent member used
    rw [same] at member
    rcases idle with unchanged | nobody
    · rw [unchanged]
      exact tended.inUse lent member used
    · -- the count says that there is no reader in use
      have none := tended.counted
      rw [nobody, eq_comm, Int.natCast_eq_zero, countP_eq_zero] at none
      simpa [used] using none lent member

theorem Tended.step (stepped : g.step use = some next) : Tended next := by
  cases use with
  | read start stop =>
    cases stepped
    exact tended.read start stop
  | close reader =>
    obtain ⟨lent, found, used, rfl⟩ := step_close stepped
    exact tended.close found used
  | tick cleaner =>
    obtain ⟨counted, same, idle⟩ := step_tick stepped
    exact tended.tick counted same idle

end

theorem step_keeps_range (stepped : g.step use = some next)
    (found : g.readers[reader]? = some lent) :
    ∃ later, next.readers[reader]? = some later ∧ later.start = lent.start ∧
      later.stop = lent.stop := by
  cases use with
  | read start stop =>
    cases stepped
    obtain ⟨handle, _, _, _, added⟩ := g.read_lends start stop
    grind
  | close other =>
    obtain ⟨closing, foundClosing, _, rfl⟩ := step_close stepped
    grind
  | tick cleaner =>
    obtain ⟨_, same, _⟩ := step_tick stepped
    exact ⟨lent, by rw [same, found], rfl, rfl⟩

def Serving (reader start stop : Nat) (g : FileGetter) : Prop :=
  Tended g ∧ ∃ lent, g.readers[reader]? = some lent ∧ lent.start = start ∧ lent.stop = stop

theorem Serving.step {start : Nat} (serving : Serving reader start stop g)
    (stepped : g.step use = some next) :
    Serving reader start stop next := by
  obtain ⟨tended, lent, found, rfl, rfl⟩ := serving
  obtain ⟨later, foundLater, sameStart, sameStop⟩ := step_keeps_range stepped found
  exact ⟨tended.step stepped, later, foundLater, sameStart, sameStop⟩

theorem Serving.readAll {start : Nat} (serving : Serving reader start stop g)
    (used : g.isClosed reader = false) (file : List UInt8) (offset : Nat) :
    g.readAll file offset reader = some ((file.drop (offset + start)).take (stop - start)) := by
  obtain ⟨tended, lent, found, rfl, rfl⟩ := serving
  have unclosed : lent.closed = false := by
    simpa [isClosed, found] using used
  have opened := tended.inUse lent (mem_of_getElem? found) unclosed
  simp only [FileGetter.readAll, found, if_pos opened]

theorem reader_reads {initial later : FileGetter} (tended : Tended initial) {uses next : List Use}
    (ran : run step initial uses = some g) (start stop : Nat)
    (ranOn : run step (g.read start stop) next = some later)
    (used : later.isClosed g.readers.length = false) (file : List UInt8) (offset : Nat) :
    later.readAll file offset g.readers.length =
      some ((file.drop (offset + start)).take (stop - start)) := by
  have before : Tended g :=
    run_keeps (fun _ _ _ held stepped => held.step stepped) tended ran
  have lent : Serving g.readers.length start stop (g.read start stop) := by
    obtain ⟨handle, _, _, _, added⟩ := g.read_lends start stop
    exact ⟨before.read start stop, _, by rw [added, getElem?_concat_length], rfl, rfl⟩
  have after : Serving g.readers.length start stop later :=
    run_keeps (fun _ _ _ held stepped => held.step stepped) lent ranOn
  exact after.readAll used file offset

/-- The readers of `Remote.Reader` for a partial file, and those of `localPieceFileGetter`. -/
inductive Getter where
  | partialFile
  | localPiece

def Getter.start : Getter → FileGetter
  | .partialFile => kept
  | .localPiece => unopened

/-- A use, or a call for which no reader can be built: then the reference that `getPF` has counted
is not given back. A section reader can always be built. -/
def Getter.step : Getter → FileGetter → Option Use → Option FileGetter
  | _, g, some use => g.step use
  | .partialFile, g, none => some g.getFile.1
  | .localPiece, _, none => none

def Unused (g : FileGetter) : Prop := ∀ lent ∈ g.readers, lent.closed = true

/-- A `cleanupIdle` has closed the file when two ticks in a row found no reader in use. -/
def ClosesIdle (g : FileGetter) (cleaner : Nat) : Prop :=
  ∀ first between second last, Unused g → g.step (.tick cleaner) = some first →
    (∀ use ∈ between, use ≠ .tick cleaner) → StepMachine.run step first between = some second →
    Unused second → second.step (.tick cleaner) = some last → first.f = none ∨ last.f = none

/-- No reader in use has lost its file, and a file that is open has a `cleanupIdle`. -/
structure Managed (g : FileGetter) : Prop where
  inUse : ∀ lent ∈ g.readers, lent.closed = false → g.f = some lent.handle
  cleaned : g.f.isSome = true → ∃ cleaner < g.cleaners.length, g.ClosesIdle cleaner

theorem Tended.refs_eq_zero (tended : Tended g) (unused : Unused g) : g.refs = 0 := by
  rw [tended.counted, Int.natCast_eq_zero, countP_eq_zero]
  intro lent member
  simp [unused lent member]

/-- One `cleanupIdle` runs while the file is open. -/
structure Watched (g : FileGetter) : Prop extends Tended g where
  one : g.cleaners.length = if g.f.isSome then 1 else 0

theorem Watched.step (watched : Watched g) (stepped : g.step use = some next) : Watched next := by
  refine ⟨watched.toTended.step stepped, ?_⟩
  have one := watched.one
  cases use with
  | read start stop => grind [FileGetter.step, FileGetter.read, getFile]
  | close reader | tick cleaner => grind [FileGetter.step]

theorem waits_step (waits : Watched g ∧ g.cleaners = [0]) (other : use ≠ .tick 0)
    (stepped : g.step use = some next) : Watched next ∧ next.cleaners = [0] := by
  obtain ⟨watched, waiting⟩ := waits
  have one := watched.one
  refine ⟨watched.step stepped, ?_⟩
  cases use with
  | read start stop => grind [FileGetter.step, FileGetter.read, getFile]
  | close reader | tick cleaner => grind [FileGetter.step]

theorem Watched.closesIdle (watched : Watched g) : g.ClosesIdle 0 := by
  intro first between second last unused ticked others ran idle ended
  by_cases closed : first.f = none
  · exact .inl closed
  have nobody := watched.toTended.refs_eq_zero unused
  have waiting : first.cleaners = [0] := by
    match running : g.cleaners, watched.one with
    | [], _ => simp [FileGetter.step, running] at ticked
    | [lastRefs], _ => grind [FileGetter.step]
    | _ :: _ :: _, one => grind
  obtain ⟨waited, still⟩ : Watched second ∧ second.cleaners = [0] :=
    run_invariant (fun _ _ _ waits other => waits_step waits other)
      ⟨watched.step ticked, waiting⟩
      (StepMachine.RunsUnder.of_forall (fun use member _ => others use member) _) ran
  have nobodyStill := waited.toTended.refs_eq_zero idle
  have one := waited.one
  grind [FileGetter.step]

/-- The file of `localPieceFileGetter` is managed in every run; that of `Remote.Reader` is not, since
nothing closes the partial file that it has opened itself. -/
theorem idle_file_managed_iff (getter : Getter) :
    (∀ calls g, StepMachine.run getter.step getter.start calls = some g → Managed g) ↔
      getter = .localPiece := by
  constructor
  · intro managed
    cases getter with
    | localPiece => rfl
    | partialFile =>
      obtain ⟨cleaner, running, -⟩ := (managed [] kept rfl).cleaned rfl
      exact absurd running (Nat.not_lt_zero cleaner)
  · rintro rfl calls g ran
    have watched : Watched g := by
      refine run_keeps (fun _ call _ before stepped => ?_) ⟨tended_unopened, rfl⟩ ran
      cases call with
      | none => cases stepped
      | some use => exact before.step stepped
    refine ⟨watched.inUse, fun opened => ⟨0, ?_, watched.closesIdle⟩⟩
    rw [watched.one, if_pos opened]
    exact Nat.one_pos

/-- After its only reader was closed the partial file stays open, and no `cleanupIdle` runs. -/
theorem first_partial_file_kept :
    ∃ g, StepMachine.run Getter.partialFile.step Getter.partialFile.start
        [some (.read 0 127), some (.close 0)] = some g ∧
      g.refs = 0 ∧ g.f = some 0 ∧ g.cleaners = [] ∧ ¬ Managed g := by
  refine ⟨_, rfl, rfl, rfl, rfl, fun managed => ?_⟩
  obtain ⟨cleaner, running, -⟩ := managed.cleaned rfl
  exact absurd running (Nat.not_lt_zero cleaner)

end FileGetter

end Curio.Paths
