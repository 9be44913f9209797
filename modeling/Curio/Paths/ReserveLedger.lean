import Curio.Paths.Reserve
import Curio.StepMachine

/-! The ledger of reservations: `Reserved` against what is outstanding, and against the entries
of `Reservations`. -/

namespace Curio.Paths

open GoRuntime Entries StepMachine List

def onPath (id : String) (out : List Reservation) : List (SectorFile × Nat) :=
  (out.filter fun reservation => reservation.id = id).map fun reservation =>
    (reservation.file, reservation.overhead)

def total (pairs : List (SectorFile × Nat)) : Nat := (pairs.map Prod.snd).sum

section OnPath

variable {id : String} {reservation : Reservation} {out rest : List Reservation}

theorem onPath_entered (out : List Reservation) (id : String) (file : SectorFile) (overhead : Nat) :
    onPath id (out ++ [⟨id, file, overhead⟩]) = onPath id out ++ [(file, overhead)] := by
  simp [onPath]

theorem onPath_entered_elsewhere {other : String} (apart : other ≠ id) (out : List Reservation)
    (file : SectorFile) (overhead : Nat) :
    onPath other (out ++ [⟨id, file, overhead⟩]) = onPath other out := by
  simp [onPath, apart.symm]

theorem onPath_here (here : reservation.id = id) :
    onPath id (reservation :: rest) =
      (reservation.file, reservation.overhead) :: onPath id rest := by
  simp [onPath, here]

theorem onPath_elsewhere (elsewhere : reservation.id ≠ id) :
    onPath id (reservation :: rest) = onPath id rest := by
  simp [onPath, elsewhere]

theorem onPath_perm (same : out.Perm rest) : (onPath id out).Perm (onPath id rest) :=
  (same.filter _).map _

theorem total_perm {first second : List (SectorFile × Nat)} (same : first.Perm second) :
    total first = total second := (same.map _).sum_eq

end OnPath

variable {ssize : Nat} {p : Path} {paths : PathMap} {id : String} {file : SectorFile}
  {store : Store}

theorem Path.reserve_eq_ok {disk : Disk} {call : ReserveCall} {fileType : FileType} {grown : Path}
    (returned : p.reserve disk call ssize fileType = .ok grown) :
    (∃ stat resvOnDisk, p.stat disk [⟨call.sid, fileType.bit, call.overhead ssize fileType⟩] =
        .ok (stat, resvOnDisk) ∧
      overheadOnDisk (call.overhead ssize fileType) resvOnDisk ≤ stat.available) ∧
      grown = p.enter ⟨call.sid, fileType⟩ (call.overhead ssize fileType) := by
  obtain ⟨⟨stat, resvOnDisk⟩, found, checked⟩ := bind_eq_ok.mp returned
  simp only at checked
  split at checked
  · cases checked
  · rename_i enough
    split at checked
    · cases checked
    · exact ⟨⟨stat, resvOnDisk, wrap_eq_ok.mp found, not_lt.mp enough⟩,
        (Except.ok.inj checked).symm⟩

section Passes

variable (disks : FileType → Disk) (call : ReserveCall) (ssize : Nat)

/-- Every pass of the loop meets a condition on the paths it starts from. -/
def PassesUnder (condition : PathMap → FileType → Prop) : List FileType → PathMap → Prop
  | [], _ => True
  | fileType :: rest, paths => condition paths fileType ∧
      ∀ p grown, paths (pathByType call.storageIds fileType) = some p →
        p.reserve (disks fileType) call ssize fileType = .ok grown →
        PassesUnder condition rest (paths.set (pathByType call.storageIds fileType) grown)

variable {disks call ssize}

section Pass

variable {fileType : FileType} {rest : List FileType} {paths : PathMap} {p grown : Path}

theorem reserveFiles_missing (missing : paths (pathByType call.storageIds fileType) = none) :
    reserveFiles disks call ssize (fileType :: rest) paths =
      (paths, [], some (.error "fsstat: path not found")) := by
  simp [reserveFiles, missing]

variable (found : paths (pathByType call.storageIds fileType) = some p)
include found

theorem reserveFiles_error {fault : Fault}
    (failed : p.reserve (disks fileType) call ssize fileType = .error fault) :
    reserveFiles disks call ssize (fileType :: rest) paths = (paths, [], some fault) := by
  simp [reserveFiles, found, failed]

theorem reserveFiles_ok (reserved : p.reserve (disks fileType) call ssize fileType = .ok grown) :
    reserveFiles disks call ssize (fileType :: rest) paths =
      let later := reserveFiles disks call ssize rest
        (paths.set (pathByType call.storageIds fileType) grown)
      (later.1, ⟨pathByType call.storageIds fileType, ⟨call.sid, fileType⟩,
        call.overhead ssize fileType⟩ :: later.2.1, later.2.2) := by
  simp [reserveFiles, found, reserved]

end Pass

theorem reserveFiles_invariant
    (invariant : PathMap → (String → Option Disk) → List Reservation → Prop)
    {condition : PathMap → FileType → Prop}
    (pass : ∀ paths seen out fileType p grown, invariant paths seen out →
      condition paths fileType → paths (pathByType call.storageIds fileType) = some p →
      p.reserve (disks fileType) call ssize fileType = .ok grown →
      invariant (paths.set (pathByType call.storageIds fileType) grown)
        (fun other => if other = pathByType call.storageIds fileType then some (disks fileType)
          else seen other)
        (out ++ [⟨pathByType call.storageIds fileType, ⟨call.sid, fileType⟩,
          call.overhead ssize fileType⟩]))
    (types : List FileType) (paths : PathMap) (seen : String → Option Disk)
    (out : List Reservation) (holds : invariant paths seen out)
    (under : PassesUnder disks call ssize condition types paths) :
    invariant (reserveFiles disks call ssize types paths).1
      (noteSeen disks (reserveFiles disks call ssize types paths).2.1 seen)
      (out ++ (reserveFiles disks call ssize types paths).2.1) := by
  induction types generalizing paths seen out with
  | nil => simpa [reserveFiles, noteSeen] using holds
  | cons fileType rest ih =>
    cases found : paths (pathByType call.storageIds fileType) with
    | none => simpa [noteSeen, reserveFiles_missing found] using holds
    | some p => grind [reserveFiles, noteSeen, PassesUnder]

end Passes

section Store

variable {store next start final : Store} {actions : List Action}

theorem outstanding_reserve (store : Store) (call : ReserveCall) (disks : FileType → Disk)
    (sized : call.sectorSize = .ok ssize) :
    (store.reserve call disks).outstanding =
      store.outstanding ++ (reserveFiles disks call ssize call.types.allSet store.paths).2.1 := by
  simp [Store.reserve, Store.outstanding, sized]

/-- A release step: what is taken back, from where, and what stays outstanding. -/
theorem release_cases {index : Nat} (stepped : store.step (.release index) = some next) :
    ∃ reservation rest fault, store.calls[index]? = some ⟨reservation :: rest, fault⟩ ∧
      next = { store with
        paths := store.paths.release reservation
        calls := store.calls.set index ⟨rest, fault⟩ } ∧
      store.outstanding.Perm (reservation :: next.outstanding) := by
  simp only [Store.step] at stepped
  split at stepped <;> cases stepped
  · rename_i reservation rest fault found
    refine ⟨reservation, rest, fault, found, rfl, ?_⟩
    obtain ⟨inside, here⟩ := List.getElem?_eq_some_iff.mp found
    have before : store.outstanding = (store.calls.take index).flatMap CallState.pending ++
        reservation :: (rest ++ (store.calls.drop (index + 1)).flatMap CallState.pending) := by
      have parts : store.calls = store.calls.take index ++
          ⟨reservation :: rest, fault⟩ :: store.calls.drop (index + 1) := by
        rw [← here, getElem_cons_drop, take_append_drop]
      conv_lhs => rw [Store.outstanding, parts]
      simp
    rw [before]
    simp only [Store.outstanding, set_eq_take_append_cons_drop, if_pos inside,
      flatMap_append]
    exact perm_middle

def Ledger (relation : Path → List (SectorFile × Nat) → Prop) (paths : PathMap)
    (out : List Reservation) : Prop :=
  ∀ id p, paths id = some p → relation p (onPath id out)

/-- A relation that entering a file and taking it back keep; a file is entered only where it
may be. -/
structure Tracks (may : Path → SectorFile → Prop)
    (relation : Path → List (SectorFile × Nat) → Prop) : Prop where
  perm : ∀ {p first second}, first.Perm second → relation p first → relation p second
  enter : ∀ {p pairs file overhead}, may p file → relation p pairs →
    relation (p.enter file overhead) (pairs ++ [(file, overhead)])
  leave : ∀ {p pairs file overhead}, relation p ((file, overhead) :: pairs) →
    relation (p.leave file overhead) pairs

def Enters (may : Path → SectorFile → Prop) (call : ReserveCall) (paths : PathMap)
    (fileType : FileType) : Prop :=
  ∀ p, paths (pathByType call.storageIds fileType) = some p → may p ⟨call.sid, fileType⟩

namespace Tracks

variable {may : Path → SectorFile → Prop} {relation : Path → List (SectorFile × Nat) → Prop}

variable {out : List Reservation}

variable (tracks : Tracks may relation)
include tracks

theorem set (holds : Ledger relation paths out) (found : paths id = some p) (overhead : Nat)
    (allowed : may p file) :
    Ledger relation (paths.set id (p.enter file overhead)) (out ++ [⟨id, file, overhead⟩]) := by
  intro other q there
  by_cases same : other = id
  · subst same
    obtain rfl : p.enter file overhead = q := by simpa [PathMap.set] using there
    rw [onPath_entered]
    exact tracks.enter allowed (holds other p found)
  · grind [onPath, Ledger, PathMap.set]

theorem release {reservation : Reservation} (holds : Ledger relation paths (reservation :: out)) :
    Ledger relation (paths.release reservation) out := by
  intro other q there
  by_cases same : other = reservation.id
  · subst same
    simp only [PathMap.release, if_true, Option.map_eq_some_iff] at there
    obtain ⟨p, found, rfl⟩ := there
    have before := holds _ p found
    rw [onPath_here rfl] at before
    exact tracks.leave before
  · grind [onPath, Ledger, PathMap.release]

theorem reserve (holds : Ledger relation store.paths store.outstanding)
    (call : ReserveCall) (disks : FileType → Disk) (passes : ∀ ssize, call.sectorSize = .ok ssize →
      PassesUnder disks call ssize (Enters may call) call.types.allSet store.paths) :
    Ledger relation (store.reserve call disks).paths (store.reserve call disks).outstanding := by
  cases sized : call.sectorSize with
  | error message => simpa [Store.reserve, Store.outstanding, sized] using holds
  | ok ssize =>
    rw [outstanding_reserve store call disks sized]
    simp only [Store.reserve, sized]
    refine reserveFiles_invariant (fun paths _ out => Ledger relation paths out)
      ?_ _ _ store.seen _ holds (passes ssize sized)
    intro paths seen out fileType p grown kept enters found reserved
    obtain ⟨_, rfl⟩ := Path.reserve_eq_ok reserved
    exact tracks.set kept found _ (enters p found)

theorem run (holds : Ledger relation start.paths start.outstanding)
    {allowed : Store → Action → Prop}
    (enters : ∀ store call disks, allowed store (.reserve call disks) →
      ∀ ssize, call.sectorSize = .ok ssize →
        PassesUnder disks call ssize (Enters may call) call.types.allSet store.paths)
    (under : RunsUnder Store.step allowed start actions)
    (ran : run Store.step start actions = some final) :
    Ledger relation final.paths final.outstanding := by
  have kept : ∀ store action next, Ledger relation store.paths store.outstanding →
      allowed store action → store.step action = some next →
      Ledger relation next.paths next.outstanding := by
    intro store action next before may stepped
    cases action with
    | reserve call disks =>
      cases stepped
      exact tracks.reserve before call disks (enters store call disks may)
    | release index =>
      obtain ⟨reservation, rest, fault, _, rfl, same⟩ := release_cases stepped
      refine tracks.release ?_
      intro id p found
      exact tracks.perm (onPath_perm same) (before id p found)
  exact run_invariant kept holds under ran

end Tracks

end Store

def Balanced (p : Path) (pairs : List (SectorFile × Nat)) : Prop := p.reserved = total pairs

def Matched (p : Path) (pairs : List (SectorFile × Nat)) : Prop :=
  p.reservations.entries.Perm pairs

theorem balanced_tracks : Tracks (fun _ _ => True) Balanced where
  perm same balanced := balanced.trans (congrArg _ (total_perm same))
  enter := by
    intro p pairs file overhead _ balanced
    simp only [Balanced, Path.enter, total] at balanced ⊢
    simp [balanced]
  leave := by
    intro p pairs file overhead balanced
    simp only [Balanced, Path.leave, total, map_cons, sum_cons] at balanced ⊢
    omega

theorem matched_tracks : Tracks (fun p file => p.reservations.get file = none) Matched where
  perm same matched := matched.trans same
  enter absent matched := put_perm matched absent
  leave matched := remove_perm matched

/-- Every file of a call is new on the path it goes to. -/
def NoOverlap (store : Store) : Action → Prop
  | .reserve call _ => ∀ fileType ∈ call.types.allSet,
      Enters (fun p file => p.reservations.get file = none) call store.paths fileType
  | .release _ => True

section NewFiles

variable {disks : FileType → Disk} {call : ReserveCall} {ssize : Nat}

theorem passesUnder_always (types : List FileType) (paths : PathMap) :
    PassesUnder disks call ssize (Enters (fun _ _ => True) call) types paths := by
  induction types generalizing paths with
  | nil => exact trivial
  | cons fileType rest ih => exact ⟨fun _ _ => trivial, fun _ _ _ _ => ih _⟩

variable {types : List FileType} {paths : PathMap}

theorem passesUnder_new (distinct : types.Nodup) (new : ∀ fileType ∈ types,
      Enters (fun p file => p.reservations.get file = none) call paths fileType) :
    PassesUnder disks call ssize (Enters (fun p file => p.reservations.get file = none) call)
      types paths := by
  induction types generalizing paths with
  | nil => exact trivial
  | cons fileType rest ih =>
    obtain ⟨apart, distinct⟩ := nodup_cons.mp distinct
    refine ⟨new fileType mem_cons_self, ?_⟩
    intro p grown found reserved
    obtain ⟨_, rfl⟩ := Path.reserve_eq_ok reserved
    refine ih distinct ?_
    intro later member q there
    by_cases same : pathByType call.storageIds later = pathByType call.storageIds fileType
    · cases (if_pos same).symm.trans there
      refine KeyMap.get_put_other ?_ ?_
      · grind
      · exact new later (mem_cons_of_mem _ member) p (same ▸ found)
    · exact new later (mem_cons_of_mem _ member) q ((if_neg same).symm.trans there)

theorem release_comm (paths : PathMap) (first second : Reservation) :
    (paths.release first).release second = (paths.release second).release first := by
  funext other
  simp only [PathMap.release]
  by_cases one : other = first.id
  · by_cases two : other = second.id
    · cases paths other with
      | none => simp
      | some p =>
        simp only [if_pos one, if_pos two, Option.map_some, Path.leave,
          KeyMap.remove_comm p.reservations first.file]
        congr 2
        omega
    · simp [if_neg two]
  · simp [if_neg one]

theorem releases_release (added : List Reservation) (paths : PathMap) (first : Reservation) :
    added.foldl PathMap.release (paths.release first) =
      (added.foldl PathMap.release paths).release first := by
  induction added generalizing paths with
  | nil => rfl
  | cons second rest ih => rw [foldl_cons, release_comm, ih, foldl_cons]

theorem release_set (found : paths id = some p) {overhead : Nat}
    (absent : p.reservations.get file = none) :
    (paths.set id (p.enter file overhead)).release ⟨id, file, overhead⟩ = paths := by
  funext other
  by_cases same : other = id
  · subst same
    simp [PathMap.release, PathMap.set, found, Path.enter, Path.leave, KeyMap.remove_put absent]
  · simp [PathMap.release, PathMap.set, same]

theorem reserveFiles_rollback (passes : PassesUnder disks call ssize
      (Enters (fun p file => p.reservations.get file = none) call) types paths) :
    (reserveFiles disks call ssize types paths).2.1.foldl PathMap.release
      (reserveFiles disks call ssize types paths).1 = paths := by
  induction types generalizing paths with
  | nil => rfl
  | cons fileType rest ih =>
    cases found : paths (pathByType call.storageIds fileType) with
    | none => rw [reserveFiles_missing found, foldl_nil]
    | some p =>
      cases reserved : p.reserve (disks fileType) call ssize fileType with
      | error fault => rw [reserveFiles_error found reserved, foldl_nil]
      | ok grown =>
        have later := ih (passes.2 p grown found reserved)
        rw [reserveFiles_ok found reserved]
        obtain ⟨_, rfl⟩ := Path.reserve_eq_ok reserved
        rw [foldl_cons, releases_release, later]
        exact release_set found (passes.1 p found)

end NewFiles

theorem run_releases (pending : List Reservation) (paths : PathMap) (calls : List CallState)
    (fault : Option Fault) (seen : String → Option Disk) :
    run Store.step ⟨paths, calls ++ [⟨pending, fault⟩], seen⟩
        (replicate pending.length (.release calls.length)) =
      some ⟨pending.foldl PathMap.release paths, calls ++ [⟨[], fault⟩], seen⟩ := by
  induction pending generalizing paths with
  | nil => rfl
  | cons reservation rest ih =>
    refine (run_cons Store.step).mpr ⟨⟨paths.release reservation, calls ++ [⟨rest, fault⟩], seen⟩,
      ?_, ih _⟩
    simp [Store.step]

theorem Store.Fresh.ledger (fresh : store.Fresh) {relation : Path → List (SectorFile × Nat) → Prop}
    (initial : ∀ p, p.reserved = 0 → p.reservations = .empty → relation p []) :
    Ledger relation store.paths store.outstanding := by
  obtain ⟨noCalls, _, unused⟩ := fresh
  intro id p found
  have nothing : store.outstanding = [] := by simp [Store.outstanding, noCalls]
  rw [nothing]
  exact initial p (unused id p found).1 (unused id p found).2

/-- `Reserved` is the sum of what is outstanding, whatever overlaps. -/
theorem reserved_eq_outstanding {start final : Store} {actions : List Action} (fresh : start.Fresh)
    (ran : run Store.step start actions = some final) :
    Ledger Balanced final.paths final.outstanding := by
  refine balanced_tracks.run (fresh.ledger ?_) ?_
    (RunsUnder.of_forall (fun _ _ _ => trivial) start) ran
  · intro p unreserved _
    exact unreserved
  · intro store call disks _ ssize _
    exact passesUnder_always _ _

/-- Where no reservation overlaps an earlier one of the same file, both ledgers are exact in
every state, and the rollback of a failed call restores the paths. -/
theorem reserve_ledger_exact {start final : Store} {actions : List Action} (fresh : start.Fresh)
    (under : RunsUnder Store.step NoOverlap start actions)
    (ran : StepMachine.run Store.step start actions = some final) :
    (∀ id p, final.paths id = some p →
      p.reserved = total (onPath id final.outstanding) ∧
      p.reserved = total p.reservations.entries) ∧
    ∀ call disks added fault, NoOverlap final (.reserve call disks) →
      (final.reserve call disks).calls = final.calls ++ [⟨added, some fault⟩] →
      ∃ after, StepMachine.run Store.step (final.reserve call disks)
          (replicate added.length (.release final.calls.length)) = some after ∧
        after.paths = final.paths ∧ after.calls = final.calls ++ [⟨[], some fault⟩] := by
  have balanced := reserved_eq_outstanding fresh ran
  have matched : Ledger Matched final.paths final.outstanding := by
    refine matched_tracks.run (fresh.ledger ?_) ?_ under ran
    · intro p _ empty
      rw [Matched, empty]
      exact Perm.nil
    · intro store call disks new ssize _
      exact passesUnder_new (SectorFileType.allSet_nodup _) new
  constructor
  · intro id p found
    have sum : p.reserved = total (onPath id final.outstanding) := balanced id p found
    exact ⟨sum, sum.trans (congrArg _ (total_perm (matched id p found)).symm)⟩
  · intro call disks added fault new calls
    cases sized : call.sectorSize with
    | error message =>
      have ended : final.reserve call disks =
          { final with calls := final.calls ++ [⟨[], some (.error message)⟩] } := by
        simp [Store.reserve, sized]
      rw [ended] at calls ⊢
      simp only [append_cancel_left_eq, cons.injEq, CallState.mk.injEq, and_true] at calls
      obtain ⟨rfl, same⟩ := calls
      exact ⟨_, rfl, rfl, by rw [same]⟩
    | ok ssize =>
      have ended : final.reserve call disks =
          let loop := reserveFiles disks call ssize call.types.allSet final.paths
          ⟨loop.1, final.calls ++ [⟨loop.2.1, loop.2.2⟩], noteSeen disks loop.2.1 final.seen⟩ := by
        simp [Store.reserve, sized]
      have restored : (reserveFiles disks call ssize call.types.allSet final.paths).2.1.foldl
          PathMap.release (reserveFiles disks call ssize call.types.allSet final.paths).1 =
            final.paths :=
        reserveFiles_rollback (passesUnder_new (SectorFileType.allSet_nodup _) new)
      rw [ended] at calls ⊢
      simp only [append_cancel_left_eq, cons.injEq, CallState.mk.injEq, and_true] at calls
      obtain ⟨rfl, same⟩ := calls
      refine ⟨_, run_releases _ _ _ _ _, restored, ?_⟩
      rw [same]

def emptyDisk : Disk := ⟨fun _ => .ok { capacity := 1000, available := 1000 }, fun _ => .bytes 0⟩

def sealedCall (number : Nat) : ReserveCall where
  sid := ⟨1000, number⟩
  sectorSize := .ok 60
  types := FileType.sealed.bit
  storageIds := { sealed := "store" }
  overheadTab := fsOverheadSeal
  minFreePercentage := ⟨fun _ _ => false, fun _ _ => ""⟩

def reserveSealed (number : Nat) : Action := .reserve (sealedCall number) fun _ => emptyDisk

def unusedStore (maxStorage : Nat) : Store where
  paths id := if id = "store" then some ⟨"/store", maxStorage, 0, .empty⟩ else none
  calls := []
  seen _ := none

theorem unusedStore_fresh (maxStorage : Nat) : (unusedStore maxStorage).Fresh := by
  refine ⟨rfl, fun _ => rfl, ?_⟩
  intro id p found
  simp only [unusedStore] at found
  split at found <;> cases found
  · exact ⟨rfl, rfl⟩

theorem noOverlap_sealed {number : Nat} (found : store.paths "store" = some p)
    (absent : p.reservations.get ⟨⟨1000, number⟩, .sealed⟩ = none) :
    NoOverlap store (reserveSealed number) := by
  intro fileType member q there
  obtain rfl : fileType = .sealed := by simpa [sealedCall] using member
  cases found.symm.trans there
  exact absent

theorem reserve_ledger_exact_two_sectors :
    ∃ final, StepMachine.run Store.step (unusedStore 0)
        [reserveSealed 1, reserveSealed 2, .release 0] = some final ∧
      final.outstanding = [⟨"store", ⟨⟨1000, 2⟩, .sealed⟩, 60⟩] ∧
      ∀ id p, final.paths id = some p →
        p.reserved = total (onPath id final.outstanding) ∧
        p.reserved = total p.reservations.entries := by
  have under : RunsUnder Store.step NoOverlap (unusedStore 0)
      [reserveSealed 1, reserveSealed 2, .release 0] := by
    refine ⟨noOverlap_sealed rfl rfl, fun next stepped => ?_⟩
    cases stepped
    exact ⟨noOverlap_sealed rfl rfl, fun _ _ => ⟨trivial, fun _ _ => trivial⟩⟩
  exact ⟨_, rfl, rfl, (reserve_ledger_exact (unusedStore_fresh 0) under rfl).1⟩

/-- Two reservations of one file leave one entry for both. -/
theorem reserve_same_file_twice :
    ∃ final p, StepMachine.run Store.step (unusedStore 0)
        [reserveSealed 1, reserveSealed 1] = some final ∧
      final.paths "store" = some p ∧ p.reserved = 120 ∧ total p.reservations.entries = 60 :=
  ⟨_, _, rfl, rfl, rfl, rfl⟩

end Curio.Paths
