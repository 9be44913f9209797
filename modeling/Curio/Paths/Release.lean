import Curio.Paths.ReserveLedger

/-! The release function that `Local.Reserve` returns. The deferred function of `Local.Reserve`
runs after the results are set, so what it assigns to the variable `release` does not reach the
caller. -/

namespace Curio.Paths

open GoRuntime Entries List

/-- `DoubleCallWrap` keeps the stack of its first call, and so knows whether there was one. -/
inductive ReleaseFunc where
  | chain (added : List Reservation)
  | doubleCallWrap (f : ReleaseFunc) (called : Bool)

namespace ReleaseFunc

/-- A chain runs its oldest function first. -/
def call : ReleaseFunc → PathMap → ReleaseFunc × PathMap
  | chain added, paths => (chain added, added.foldl PathMap.release paths)
  | doubleCallWrap f true, paths => (doubleCallWrap f true, paths)
  | doubleCallWrap f false, paths => (doubleCallWrap (f.call paths).1 true, (f.call paths).2)

def calls : Nat → ReleaseFunc → PathMap → PathMap
  | 0, _, paths => paths
  | n + 1, f, paths => calls n (f.call paths).1 (f.call paths).2

end ReleaseFunc

/-- The named results of `Local.Reserve` and its variable `release`. -/
structure ReserveFrame where
  userRelease : Option ReleaseFunc
  err : Option Fault
  release : ReleaseFunc

def ReserveFrame.deferred (frame : ReserveFrame) (paths : PathMap) : ReserveFrame × PathMap :=
  match frame.err with
  | some _ => ({ frame with release := .chain [] }, (frame.release.call paths).2)
  | none => ({ frame with release := .doubleCallWrap frame.release false }, paths)

def Local.reserve (disks : FileType → Disk) (call : ReserveCall) (paths : PathMap) :
    PathMap × Option ReleaseFunc × Option Fault :=
  match call.sectorSize with
  | .error message => (paths, none, some (.error message))
  | .ok ssize =>
    let (frame, paths) : ReserveFrame × PathMap :=
      match reserveFiles disks call ssize call.types.allSet paths with
      | (paths, added, some err) => ReserveFrame.deferred ⟨none, some err, .chain added⟩ paths
      -- `return release, nil` copies the function before the deferred one wraps the variable
      | (paths, added, none) => ReserveFrame.deferred ⟨some (.chain added), none, .chain added⟩ paths
    (paths, frame.userRelease, frame.err)

def Path.releases (p : Path) (pairs : List (SectorFile × Nat)) : Path :=
  { p with
    reserved := p.reserved - total pairs
    reservations := p.reservations.removeWhere fun file _ => file ∈ pairs.map Prod.fst }

section Repeated

variable (p : Path) (pairs : List (SectorFile × Nat)) (added : List Reservation) (paths : PathMap)

theorem releases_nil : p.releases [] = p := by
  simp [Path.releases, total, KeyMap.removeWhere]

theorem leave_releases (file : SectorFile) (overhead : Nat) :
    (p.leave file overhead).releases pairs = p.releases ((file, overhead) :: pairs) := by
  simp only [Path.releases, Path.leave, total, map_cons, sum_cons, Path.mk.injEq, true_and]
  refine ⟨by omega, KeyMap.ext ?_⟩
  simp only [KeyMap.removeWhere, KeyMap.remove, KeyMap.without, filter_filter, mem_cons]
  exact filter_congr fun entry _ => by simp [Bool.and_comm]

theorem releases_at (id : String) :
    added.foldl PathMap.release paths id =
      (paths id).map fun p => p.releases (onPath id added) := by
  induction added generalizing paths with
  | nil => simp [onPath, releases_nil]
  | cons first rest ih =>
    rw [foldl_cons, ih]
    by_cases here : first.id = id
    · rw [onPath_here here, PathMap.release, if_pos here.symm, Option.map_map]
      simp only [Function.comp_def, leave_releases]
    · rw [onPath_elsewhere here, PathMap.release, if_neg (Ne.symm here)]

theorem releases_iterate (n : Nat) :
    (fun p : Path => p.releases pairs)^[n + 1] p =
      { p.releases pairs with reserved := p.reserved - (n + 1) * total pairs } := by
  induction n with
  | zero => simp [Path.releases]
  | succ n ih =>
    rw [Function.iterate_succ_apply', ih]
    simp only [Path.releases, Path.mk.injEq, true_and]
    refine ⟨by push_cast; ring, KeyMap.ext ?_⟩
    simp only [KeyMap.removeWhere, filter_filter, Bool.and_self]

theorem calls_chain (n : Nat) : (ReleaseFunc.chain added).calls n paths =
    (fun paths : PathMap => added.foldl PathMap.release paths)^[n] paths := by
  induction n generalizing paths with
  | zero => rfl
  | succ n ih => exact ih _

theorem calls_at (n : Nat) (id : String) :
    (ReleaseFunc.chain added).calls (n + 1) paths id = (paths id).map fun p =>
      { p.releases (onPath id added) with
        reserved := p.reserved - (n + 1) * total (onPath id added) } := by
  have each (m : Nat) : (ReleaseFunc.chain added).calls m paths id =
      (paths id).map (fun p : Path => p.releases (onPath id added))^[m] := by
    rw [calls_chain]
    induction m with
    | zero => simp
    | succ m ih =>
      rw [Function.iterate_succ_apply', releases_at, ih, Option.map_map, Function.iterate_succ']
  rw [each]
  exact congrArg (fun f => (paths id).map f) (funext fun p => releases_iterate p _ n)

end Repeated

/-- `Reserved`, an `int64`, and `Reservations`. -/
def Path.held (p : Path) : Int × KeyMap SectorFile Nat := (int64 p.reserved, p.reservations)

/-- What the call reserves on a path. -/
def ReserveCall.overheadOn (call : ReserveCall) (ssize : Nat) (id : String) : Nat :=
  ((call.types.allSet.filter fun fileType => pathByType call.storageIds fileType = id).map
    (call.overhead ssize)).sum

theorem int64_eq_iff {a b : Int} : int64 a = int64 b ↔ 2 ^ 64 ∣ a - b := by
  rw [int64, int64, Int.bmod_eq_bmod_iff_bmod_sub_eq_zero, ← Int.dvd_iff_bmod_eq_zero]
  rfl

section Returned

variable {disks : FileType → Disk} {call : ReserveCall} {paths after : PathMap} {f : ReleaseFunc}
  {ssize : Nat}

theorem reserveFiles_added {types : List FileType}
    (clean : (reserveFiles disks call ssize types paths).2.2 = none) :
    (reserveFiles disks call ssize types paths).2.1 = types.map fun fileType =>
      ⟨pathByType call.storageIds fileType, ⟨call.sid, fileType⟩, call.overhead ssize fileType⟩ := by
  induction types generalizing paths with
  | nil => rfl
  | cons fileType rest ih =>
    cases found : paths (pathByType call.storageIds fileType) with
    | none => simp [reserveFiles_missing found] at clean
    | some p =>
      cases reserved : p.reserve (disks fileType) call ssize fileType with
      | error fault => simp [reserveFiles_error found reserved] at clean
      | ok grown =>
        rw [reserveFiles_ok found reserved] at clean ⊢
        simp only [map_cons, ih clean]

/-- The caller gets the bare chain, and what it takes back is what the ledger has pending. -/
theorem reserve_returned {store : Store} (sized : call.sectorSize = .ok ssize)
    (returned : Local.reserve disks call store.paths = (after, some f, none)) :
    ∃ added, f = .chain added ∧
      added = call.types.allSet.map (fun fileType => ⟨pathByType call.storageIds fileType,
        ⟨call.sid, fileType⟩, call.overhead ssize fileType⟩) ∧
      (store.reserve call disks).paths = after ∧
      (store.reserve call disks).calls = store.calls ++ [⟨added, none⟩] := by
  simp only [Local.reserve, sized] at returned
  rcases loop : reserveFiles disks call ssize call.types.allSet store.paths with
    ⟨paths, added, _ | err⟩
  · rw [loop] at returned
    cases returned
    have all := reserveFiles_added (congrArg (fun result => result.2.2) loop)
    rw [loop] at all
    have grown : store.reserve call disks =
        ⟨paths, store.calls ++ [⟨added, none⟩], noteSeen disks added store.seen⟩ := by
      simp [Store.reserve, sized, loop]
    rw [grown]
    exact ⟨added, rfl, all, rfl, rfl⟩
  · rw [loop] at returned
    cases returned

/-- Calling the returned function again changes nothing exactly where what it takes back of
`Reserved` once more is a multiple of the range of an `int64`. -/
theorem release_repeated_iff {store : Store} {later : PathMap} {n : Nat}
    (sized : call.sectorSize = .ok ssize)
    (returned : Local.reserve disks call store.paths = (after, some f, none))
    (registered : ∀ fileType ∈ call.types.allSet,
      later (pathByType call.storageIds fileType) ≠ none) (positive : 1 ≤ n) :
    (∀ id, (f.calls n later id).map Path.held = (f.calls 1 later id).map Path.held) ↔
      ∀ fileType ∈ call.types.allSet,
        2 ^ 64 ∣ (n - 1) * call.overheadOn ssize (pathByType call.storageIds fileType) := by
  obtain ⟨m, rfl⟩ := Nat.exists_eq_add_of_le' positive
  obtain ⟨added, rfl, all, _⟩ := reserve_returned sized returned
  have reserved (id : String) : total (onPath id added) = call.overheadOn ssize id := by
    rw [all, total, onPath, filter_map, map_map, map_map, ReserveCall.overheadOn]
    rfl
  have once (id : String) (p : Path) (there : later id = some p) :
      ((ReleaseFunc.chain added).calls (m + 1) later id).map Path.held =
          ((ReleaseFunc.chain added).calls 1 later id).map Path.held ↔
        2 ^ 64 ∣ m * call.overheadOn ssize id := by
    rw [calls_at, calls_at _ _ 0, there, reserved, ← Int.natCast_dvd_natCast]
    simp only [Option.map_some, Option.some.injEq, Path.held, Prod.mk.injEq, and_true,
      int64_eq_iff]
    have back : p.reserved - ((m : Int) + 1) * call.overheadOn ssize id -
        (p.reserved - (((0 : Nat) : Int) + 1) * call.overheadOn ssize id) =
        -((m * call.overheadOn ssize id : Nat) : Int) := by
      push_cast
      ring
    rw [back, Int.dvd_neg]
    rfl
  constructor
  · intro same fileType member
    obtain ⟨p, there⟩ := Option.ne_none_iff_exists'.mp (registered fileType member)
    exact (once _ p there).mp (same _)
  · intro multiple id
    cases there : later id with
    | none => rw [calls_at, calls_at _ _ 0, there]; rfl
    | some p =>
      refine (once id p there).mpr ?_
      by_cases used : ∃ fileType ∈ call.types.allSet, pathByType call.storageIds fileType = id
      · obtain ⟨fileType, member, rfl⟩ := used
        exact multiple fileType member
      · have nothing : call.overheadOn ssize id = 0 := by
          rw [ReserveCall.overheadOn, filter_eq_nil_iff.mpr (by simpa using used)]
          rfl
        rw [nothing, Nat.mul_zero]
        exact Nat.dvd_zero _

end Returned

theorem release_repeated_iff_sealed :
    ∃ after f, Local.reserve (fun _ => emptyDisk) (sealedCall 1) (unusedStore 0).paths =
        (after, some f, none) ∧
      ¬∀ id, (f.calls 2 after id).map Path.held = (f.calls 1 after id).map Path.held := by
  have returned : Local.reserve (fun _ => emptyDisk) (sealedCall 1) (unusedStore 0).paths =
      (_, some _, none) := rfl
  refine ⟨_, _, returned, (release_repeated_iff rfl returned ?_ (by decide)).not.mpr ?_⟩
  · intro fileType member
    obtain rfl : fileType = .sealed := by simpa [sealedCall] using member
    exact Option.some_ne_none _
  · intro multiple
    have sixty : 2 ^ 64 ∣ 1 * (60 + 0) := multiple .sealed (by simp [sealedCall])
    omega

/-- The first of two reservations is released twice: nothing is reserved for the second. -/
theorem released_twice :
    ∃ first f second p, Local.reserve (fun _ => emptyDisk) (sealedCall 1) (unusedStore 0).paths =
        (first, some f, none) ∧
      (Local.reserve (fun _ => emptyDisk) (sealedCall 2) first).1 = second ∧
      f.calls 1 second "store" = some p ∧ p.reserved = 60 ∧
      ∃ again, f.calls 2 second "store" = some again ∧ again.reserved = 0 ∧
        again.reservations.get ⟨⟨1000, 2⟩, .sealed⟩ = some 60 :=
  ⟨_, _, _, _, rfl, rfl, rfl, rfl, _, rfl, rfl, rfl⟩

end Curio.Paths
