import Curio.Entries
import Curio.GoRuntime
import Curio.Paths.FileType

/-! `path.stat` and `Local.Reserve` of `lib/paths/local.go`: space on a storage path is set aside
for the files of a sector before they are written.

A key of `Reservations` is the text of a sector file; the text and the file determine each
other. Byte counts do not wrap: the reservations of a path, the files on it and a product with an
overhead are less than `2 ^ 63`. The disk is a parameter, as it is found when a file is looked at. -/

namespace Curio.Paths

open GoRuntime Entries

structure SectorFile where
  sid : SectorId
  fileType : FileType
  deriving DecidableEq

structure FsStat where
  capacity : Int
  available : Int
  reserved : Int := 0
  max : Int := 0
  used : Int := 0
  deriving DecidableEq

inductive Usage where
  | bytes (used : Nat)
  | notExist
  | failed (message : String)
  deriving DecidableEq

/-- `LocalStorage` at one moment. -/
structure Disk where
  stat : String → Call FsStat
  diskUsage : String → Usage

structure Path where
  localDir : String
  maxStorage : Nat
  reserved : Int
  reservations : KeyMap SectorFile Nat

/-- `statExistingSectorForReservation` -/
structure NewReserve where
  sid : SectorId
  types : SectorFileType
  overhead : Nat

namespace Path

variable (disk : Disk) (p : Path)

def sectorPath (file : SectorFile) : String :=
  s!"{p.localDir}/{file.fileType.name}/{sectorName file.sid}"

/-- `tempFetchDest(sectorPath, false)` -/
def fetchPath (file : SectorFile) : String :=
  s!"{p.localDir}/{file.fileType.name}/fetching/{sectorName file.sid}"

/-- `accountExistingFiles`: the file, its temporary name, then its place while it is fetched. Any
other error counts as nothing on disk. -/
def onDisk (file : SectorFile) : Nat :=
  match disk.diskUsage (p.sectorPath file) with
  | .bytes used => used
  | .failed _ => 0
  | .notExist =>
    match disk.diskUsage (p.sectorPath file ++ ".tmp") with
    | .bytes used => used
    | .failed _ => 0
    | .notExist =>
      match disk.diskUsage (p.fetchPath file) with
      | .bytes used => used
      | .failed _ => 0
      | .notExist => 0

def accounted (file : SectorFile) (overhead : Nat) : Nat :=
  if p.onDisk disk file > overhead then overhead else p.onDisk disk file

def unwritten : Int :=
  p.reservations.entries.foldl (fun reserved entry => reserved - p.accounted disk entry.1 entry.2)
    p.reserved

/-- The loop over the new reservations: a file that has a reservation already is not counted. -/
def newReserveOnDisk (newReserve : List NewReserve) : Nat :=
  newReserve.foldl (fun total reservation =>
    reservation.types.allSet.foldl (fun total fileType =>
      match p.reservations.get ⟨reservation.sid, fileType⟩ with
      | some _ => total
      | none => total + p.accounted disk ⟨reservation.sid, fileType⟩ reservation.overhead) total) 0

def stat (newReserve : List NewReserve) : Go (FsStat × Nat) := do
  let fs ← wrap s!"stat {p.localDir}" (ofCall (disk.stat p.localDir))
  let onDiskNew := p.newReserveOnDisk disk newReserve
  let reserved := if p.unwritten disk < 0 then 0 else p.unwritten disk
  let available := if fs.available - reserved < 0 then 0 else fs.available - reserved
  if p.maxStorage > 0 then
    match disk.diskUsage p.localDir with
    | .notExist => fail "file does not exist"
    | .failed message => fail message
    | .bytes used =>
      let avail := if used > p.maxStorage then 0 else int64 p.maxStorage - used
      .ok ({ fs with
        reserved := reserved
        max := int64 p.maxStorage
        used := used
        available := if avail < available then avail else available }, onDiskNew)
  else .ok ({ fs with reserved := reserved, available := available }, onDiskNew)

def enter (file : SectorFile) (overhead : Nat) : Path :=
  { p with
    reserved := p.reserved + overhead
    reservations := p.reservations.put file overhead }

def leave (file : SectorFile) (overhead : Nat) : Path :=
  { p with
    reserved := p.reserved - overhead
    reservations := p.reservations.remove file }

end Path

def maxCapacity (st : FsStat) : Int := if st.max > 0 then st.max else st.capacity

/-- The comparison of the free percentage with the minimum, in floating point, and the text of
the two numbers. -/
structure FreePercentage where
  below : (availableAfter maxCapacity : Int) → Bool
  text : (availableAfter maxCapacity : Int) → String

structure ReserveCall where
  sid : SectorId
  sectorSize : Call Nat
  types : SectorFileType
  storageIds : SectorPaths
  overheadTab : FileType → Nat
  minFreePercentage : FreePercentage

def ReserveCall.overhead (call : ReserveCall) (ssize : Nat) (fileType : FileType) : Nat :=
  call.overheadTab fileType * ssize / fsOverheadDen

/-- What is still to be written; more on disk than the overhead counts as all of it. -/
def overheadOnDisk (overhead resvOnDisk : Int) : Int :=
  overhead - if overhead - resvOnDisk < 0 then overhead else resvOnDisk

def Path.reserve (disk : Disk) (call : ReserveCall) (ssize : Nat) (fileType : FileType) (p : Path) :
    Go Path := do
  let overhead := call.overhead ssize fileType
  let (stat, resvOnDisk) ← wrap "getting local storage stat"
    (p.stat disk [⟨call.sid, fileType.bit, overhead⟩])
  let id := pathByType call.storageIds fileType
  let availableAfter := stat.available - overheadOnDisk overhead resvOnDisk
  if stat.available < overheadOnDisk overhead resvOnDisk then
    fail (s!"can't reserve {overhead} bytes in '{p.localDir}' (id:{id}), " ++
      s!"only {stat.available} available")
  else if call.minFreePercentage.below availableAfter (maxCapacity stat) then
    fail (s!"can't reserve {overhead} bytes in '{p.localDir}' (id:{id}), " ++
      call.minFreePercentage.text availableAfter (maxCapacity stat))
  else .ok (p.enter ⟨call.sid, fileType⟩ overhead)

structure Reservation where
  id : String
  file : SectorFile
  overhead : Nat
  deriving DecidableEq

abbrev PathMap := String → Option Path

def PathMap.set (paths : PathMap) (id : String) (p : Path) : PathMap :=
  fun other => if other = id then some p else paths other

def reserveFiles (disks : FileType → Disk) (call : ReserveCall) (ssize : Nat) :
    List FileType → PathMap → PathMap × List Reservation × Option Fault
  | [], paths => (paths, [], none)
  | fileType :: rest, paths =>
    let id := pathByType call.storageIds fileType
    match paths id with
    | none => (paths, [], some (.error "fsstat: path not found"))
    | some p =>
      match p.reserve (disks fileType) call ssize fileType with
      | .error fault => (paths, [], some fault)
      | .ok grown =>
        let (after, added, fault) := reserveFiles disks call ssize rest (paths.set id grown)
        (after, ⟨id, ⟨call.sid, fileType⟩, call.overhead ssize fileType⟩ :: added, fault)

def PathMap.release (paths : PathMap) (reservation : Reservation) : PathMap := fun other =>
  if other = reservation.id then
    (paths other).map fun p => p.leave reservation.file reservation.overhead
  else paths other

/-- A call of `Local.Reserve`: what its release function has still to take back, oldest first,
and the error it returns. After an error the release function runs before the call returns. -/
structure CallState where
  pending : List Reservation
  fault : Option Fault

/-- The store, and for each path the disk that the last reservation on it saw. -/
structure Store where
  paths : PathMap
  calls : List CallState
  seen : String → Option Disk

inductive Action where
  | reserve (call : ReserveCall) (disks : FileType → Disk)
  | release (index : Nat)

def noteSeen (disks : FileType → Disk) (added : List Reservation) (seen : String → Option Disk) :
    String → Option Disk :=
  added.foldl (fun seen reservation other =>
    if other = reservation.id then some (disks reservation.file.fileType) else seen other) seen

namespace Store

def reserve (store : Store) (call : ReserveCall) (disks : FileType → Disk) : Store :=
  match call.sectorSize with
  | .error message => { store with calls := store.calls ++ [⟨[], some (.error message)⟩] }
  | .ok ssize =>
    let (paths, added, fault) := reserveFiles disks call ssize call.types.allSet store.paths
    ⟨paths, store.calls ++ [⟨added, fault⟩], noteSeen disks added store.seen⟩

/-- A release function takes back its reservations one lock at a time. -/
def step (store : Store) : Action → Option Store
  | .reserve call disks => some (store.reserve call disks)
  | .release index =>
    match store.calls[index]? with
    | some ⟨reservation :: rest, fault⟩ =>
      some { store with
        paths := store.paths.release reservation
        calls := store.calls.set index ⟨rest, fault⟩ }
    | _ => none

def outstanding (store : Store) : List Reservation := store.calls.flatMap CallState.pending

def Fresh (store : Store) : Prop :=
  store.calls = [] ∧ (∀ id, store.seen id = none) ∧
    ∀ id p, store.paths id = some p → p.reserved = 0 ∧ p.reservations = .empty

end Store

end Curio.Paths
