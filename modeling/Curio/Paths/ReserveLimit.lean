import Curio.Paths.ReserveLedger

/-! Reservations against the space a path may still take: the free space of the file system, and
what `MaxStorage` leaves. -/

namespace Curio.Paths

open GoRuntime Entries StepMachine List

def toWrite (disk : Disk) (p : Path) (pairs : List (SectorFile × Nat)) : Nat :=
  (pairs.map fun pair => pair.2 - p.onDisk disk pair.1).sum

def Within (disk : Disk) (p : Path) (bytes : Nat) : Prop :=
  ∃ fs, disk.stat p.localDir = .ok fs ∧ (bytes : Int) ≤ fs.available ∧
    (p.maxStorage > 0 → ∃ used, disk.diskUsage p.localDir = .bytes used ∧
      (bytes : Int) ≤ p.maxStorage - used)

def Below (p : Path) (pairs : List (SectorFile × Nat)) : Prop :=
  p.reservations.entries.Subperm pairs

theorem below_tracks : Tracks (fun _ _ => True) Below where
  perm same below := below.trans same.subperm
  enter _ below := put_subperm below
  leave below := remove_subperm below

abbrev ReserveCall.entry (call : ReserveCall) (ssize : Nat) (fileType : FileType) :
    SectorFile × Nat :=
  (⟨call.sid, fileType⟩, call.overhead ssize fileType)

variable {disks : FileType → Disk} {paths : PathMap} {disk : Disk} {p : Path}
  {seen : String → Option Disk} {out : List Reservation} {store : Store}

section Pass

variable {disk : Disk} {p grown : Path} {pairs : List (SectorFile × Nat)} {call : ReserveCall}
  {ssize : Nat} {fileType : FileType}

theorem accounted_add_toWrite (disk : Disk) (p : Path) (pairs : List (SectorFile × Nat)) :
    (pairs.map fun pair => p.accounted disk pair.1 pair.2).sum + toWrite disk p pairs =
      total pairs := by
  induction pairs with
  | nil => rfl
  | cons pair rest ih => grind [Path.accounted, toWrite, total]

theorem unwritten_eq (disk : Disk) (p : Path) :
    p.unwritten disk = p.reserved -
      (p.reservations.entries.map fun entry => p.accounted disk entry.1 entry.2).sum := by
  unfold Path.unwritten
  generalize p.reserved = reserved
  induction p.reservations.entries generalizing reserved with
  | nil => simp
  | cons entry rest ih => grind

theorem toWrite_le_unwritten (balanced : Balanced p pairs) (below : Below p pairs) :
    (toWrite disk p pairs : Int) ≤ p.unwritten disk := by
  have parts := accounted_add_toWrite disk p pairs
  have fewer := sum_le_of_subperm (fun pair => p.accounted disk pair.1 pair.2) below
  rw [unwritten_eq, balanced]
  omega

theorem newReserveOnDisk_le (disk : Disk) (p : Path) (sid : SectorId) (fileType : FileType)
    (overhead : Nat) :
    p.newReserveOnDisk disk [⟨sid, fileType.bit, overhead⟩] ≤
      p.accounted disk ⟨sid, fileType⟩ overhead := by
  grind [Path.newReserveOnDisk, FileType.allSet_bit]

theorem stat_eq_ok {newReserve : List NewReserve} {stat : FsStat} {onDiskNew : Nat}
    (returned : p.stat disk newReserve = .ok (stat, onDiskNew)) :
    onDiskNew = p.newReserveOnDisk disk newReserve ∧ ∃ fs, disk.stat p.localDir = .ok fs ∧
      stat.available ≤ max 0 (fs.available - max 0 (p.unwritten disk)) ∧
      (p.maxStorage > 0 → ∃ used, disk.diskUsage p.localDir = .bytes used ∧
        stat.available ≤ max 0 (p.maxStorage - used : Int)) := by
  obtain ⟨fs, found, checked⟩ := bind_eq_ok.mp returned
  have read := ofCall_eq_ok.mp (wrap_eq_ok.mp found)
  simp only at checked
  have reserved : (if p.unwritten disk < 0 then 0 else p.unwritten disk) =
      max 0 (p.unwritten disk) := by split <;> omega
  have clipped : (if fs.available - max 0 (p.unwritten disk) < 0 then 0
      else fs.available - max 0 (p.unwritten disk)) =
        max 0 (fs.available - max 0 (p.unwritten disk)) := by split <;> omega
  rw [reserved] at checked
  by_cases limited : p.maxStorage > 0
  · rw [if_pos limited] at checked
    cases usage : disk.diskUsage p.localDir with
    | notExist | failed message => simp [usage, fail] at checked
    | bytes used =>
      simp only [usage] at checked
      have word := int64_le p.maxStorage
      grind
  · grind

/-- A pass has a path to itself, or the file system is the tighter limit; and what is already on
disk in full is reserved only while there is room for all that is reserved. -/
def Roomy (disks : FileType → Disk) (call : ReserveCall) (ssize : Nat) (paths : PathMap)
    (fileType : FileType) : Prop :=
  ∀ p fs, paths (pathByType call.storageIds fileType) = some p →
    (disks fileType).stat p.localDir = .ok fs →
    (p.onDisk (disks fileType) ⟨call.sid, fileType⟩ < call.overhead ssize fileType ∨
      p.reserved ≤ fs.available) ∧
    (p.maxStorage > 0 → ∀ used, (disks fileType).diskUsage p.localDir = .bytes used →
      fs.available ≤ p.maxStorage - used ∨ p.reserved = 0 ∧ used ≤ p.maxStorage)

theorem toWrite_perm {others : List (SectorFile × Nat)} (same : pairs.Perm others) :
    toWrite disk p pairs = toWrite disk p others := (same.map _).sum_eq

theorem toWrite_append (disk : Disk) (p : Path) (front back : List (SectorFile × Nat)) :
    toWrite disk p (front ++ back) = toWrite disk p front + toWrite disk p back := by
  simp [toWrite]

theorem toWrite_entered_le (returned : p.reserve disk call ssize fileType = .ok grown) :
    ∃ newReserve stat onDiskNew, p.stat disk newReserve = .ok (stat, onDiskNew) ∧
      (toWrite disk p [call.entry ssize fileType] : Int) ≤ stat.available := by
  obtain ⟨⟨stat, resvOnDisk, found, enough⟩, _⟩ := Path.reserve_eq_ok returned
  refine ⟨_, stat, resvOnDisk, found, ?_⟩
  obtain ⟨rfl, -⟩ := stat_eq_ok found
  have counted := newReserveOnDisk_le disk p call.sid fileType (call.overhead ssize fileType)
  have parts := accounted_add_toWrite disk p [call.entry ssize fileType]
  simp only [total, map_cons, map_nil, sum_cons] at parts
  unfold overheadOnDisk at enough
  split at enough <;> omega

theorem within_entered (balanced : Balanced p pairs) (below : Below p pairs)
    (found : paths (pathByType call.storageIds fileType) = some p)
    (roomy : Roomy disks call ssize paths fileType)
    (returned : p.reserve (disks fileType) call ssize fileType = .ok grown) :
    Within (disks fileType) grown
      (toWrite (disks fileType) grown (pairs ++ [call.entry ssize fileType])) := by
  obtain ⟨_, stat, _, statted, enough⟩ := toWrite_entered_le returned
  obtain ⟨-, fs, read, free, limited⟩ := stat_eq_ok statted
  obtain ⟨-, rfl⟩ := Path.reserve_eq_ok returned
  obtain ⟨unfinished, limits⟩ := roomy p fs found read
  have still : (toWrite (disks fileType) p pairs : Int) ≤ p.unwritten (disks fileType) :=
    toWrite_le_unwritten balanced below
  have atMost : (toWrite (disks fileType) p pairs : Int) ≤ p.reserved := by
    have parts := accounted_add_toWrite (disks fileType) p pairs
    rw [balanced]
    omega
  have entered : toWrite (disks fileType) p [call.entry ssize fileType] =
      call.overhead ssize fileType - p.onDisk (disks fileType) ⟨call.sid, fileType⟩ := by
    simp [toWrite]
  have joined := toWrite_append (disks fileType) p pairs [call.entry ssize fileType]
  have fits : (toWrite (disks fileType) p (pairs ++ [call.entry ssize fileType]) : Int) ≤
      fs.available := by
    clear limited
    omega
  refine ⟨fs, read, fits, fun positive => ?_⟩
  obtain ⟨used, usage, most⟩ := limited positive
  refine ⟨used, usage, ?_⟩
  show (toWrite (disks fileType) p (pairs ++ [call.entry ssize fileType]) : Int) ≤
    p.maxStorage - used
  rcases limits positive used usage with tighter | ⟨unreserved, inside⟩
  · exact fits.trans tighter
  · clear limited
    omega

end Pass

def Fits (paths : PathMap) (seen : String → Option Disk) (out : List Reservation) : Prop :=
  ∀ id p disk, paths id = some p → seen id = some disk →
    Within disk p (toWrite disk p (onPath id out))

def RoomyAction (store : Store) : Action → Prop
  | .reserve call disks => ∀ ssize, call.sectorSize = .ok ssize →
      PassesUnder disks call ssize (Roomy disks call ssize) call.types.allSet store.paths
  | .release _ => True

theorem Within.mono {bytes fewer : Nat} (within : Within disk p bytes) (less : fewer ≤ bytes) :
    Within disk p fewer := by
  obtain ⟨fs, read, free, limited⟩ := within
  refine ⟨fs, read, by omega, fun positive => ?_⟩
  grind

structure Committed (paths : PathMap) (seen : String → Option Disk) (out : List Reservation) :
    Prop where
  balanced : Ledger Balanced paths out
  below : Ledger Below paths out
  fits : Fits paths seen out

theorem Committed.entered {call : ReserveCall} {ssize : Nat} {fileType : FileType} {grown : Path}
    (committed : Committed paths seen out) (roomy : Roomy disks call ssize paths fileType)
    (found : paths (pathByType call.storageIds fileType) = some p)
    (reserved : p.reserve (disks fileType) call ssize fileType = .ok grown) :
    Committed (paths.set (pathByType call.storageIds fileType) grown)
      (fun other => if other = pathByType call.storageIds fileType then some (disks fileType)
        else seen other)
      (out ++ [⟨pathByType call.storageIds fileType, ⟨call.sid, fileType⟩,
        call.overhead ssize fileType⟩]) := by
  obtain ⟨-, grew⟩ := Path.reserve_eq_ok reserved
  refine ⟨grew ▸ balanced_tracks.set committed.balanced found _ trivial,
    grew ▸ below_tracks.set committed.below found _ trivial, ?_⟩
  intro other q disk there saw
  by_cases same : other = pathByType call.storageIds fileType
  · cases (if_pos same).symm.trans there
    cases (if_pos same).symm.trans saw
    subst same
    rw [onPath_entered]
    exact within_entered (committed.balanced _ p found) (committed.below _ p found) found roomy
      reserved
  · rw [onPath_entered_elsewhere same]
    exact committed.fits other q disk ((if_neg same).symm.trans there)
      ((if_neg same).symm.trans saw)

theorem Committed.release {rest : List Reservation} {reservation : Reservation}
    (committed : Committed paths seen out) (same : out.Perm (reservation :: rest)) :
    Committed (paths.release reservation) seen rest := by
  refine ⟨balanced_tracks.release ?_, below_tracks.release ?_, ?_⟩
  · exact fun id p found => balanced_tracks.perm (onPath_perm same) (committed.balanced id p found)
  · exact fun id p found => below_tracks.perm (onPath_perm same) (committed.below id p found)
  · intro id q disk there saw
    have perm : (onPath id out).Perm (onPath id (reservation :: rest)) := onPath_perm same
    by_cases here : id = reservation.id
    · simp only [PathMap.release, if_pos here, Option.map_eq_some_iff] at there
      obtain ⟨p, found, rfl⟩ := there
      refine (committed.fits id p disk found saw).mono ?_
      rw [onPath_here here.symm] at perm
      rw [toWrite_perm perm]
      exact Nat.le_add_left (toWrite disk p (onPath id rest)) _
    · simp only [PathMap.release, if_neg here] at there
      rw [onPath_elsewhere (Ne.symm here)] at perm
      rw [← toWrite_perm perm]
      exact committed.fits id q disk there saw

theorem Committed.step {next : Store} {action : Action}
    (committed : Committed store.paths store.seen store.outstanding)
    (roomy : RoomyAction store action) (stepped : store.step action = some next) :
    Committed next.paths next.seen next.outstanding := by
  cases action with
  | reserve call disks =>
    cases stepped
    cases sized : call.sectorSize with
    | error message => simpa [Store.reserve, Store.outstanding, sized] using committed
    | ok ssize =>
      rw [outstanding_reserve store call disks sized]
      simp only [Store.reserve, sized]
      refine reserveFiles_invariant Committed ?_ _ _ _ _ committed (roomy ssize sized)
      intro paths seen out fileType p grown before room found reserved
      exact before.entered room found reserved
  | release index =>
    obtain ⟨reservation, rest, fault, -, rfl, same⟩ := release_cases stepped
    exact committed.release same

theorem roomy_sealed {number : Nat} (found : store.paths "store" = some p)
    (room : p.reserved ≤ 1000) (limit : p.maxStorage > 0 → 1000 ≤ p.maxStorage) :
    RoomyAction store (reserveSealed number) := by
  intro ssize sized
  have only : (sealedCall number).types.allSet = [.sealed] := FileType.allSet_bit .sealed
  rw [only]
  refine ⟨?_, fun _ _ _ _ => trivial⟩
  intro q fs there read
  cases found.symm.trans there
  cases read
  refine ⟨.inr room, fun positive used usage => .inl ?_⟩
  obtain rfl := Usage.bytes.inj usage
  simp only
  omega

end Curio.Paths
