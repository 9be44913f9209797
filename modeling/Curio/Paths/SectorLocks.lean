import Curio.Entries
import Curio.GoRuntime
import Curio.Paths.FileType

/-! The table `sector_location` and the sector locks of `lib/paths/db_index.go`.

A statement is atomic, and `lock` and `unlock` are each one transaction. All parties read one
clock, in microseconds. A lock call has an owner of its own (`uuid.New`). -/

namespace Curio.Paths

open GoRuntime Entries

structure Location where
  sid : SectorId
  fileType : SectorFileType
  storageId : String
  deriving DecidableEq

abbrev Owner := String

structure Locks where
  readTs : Option Nat := none
  readRefs : Int := 0
  writeTs : Option Nat := none
  writeLockOwner : Option Owner := none
  deriving DecidableEq

structure LocationRow extends Locks where
  isPrimary : Bool
  deriving DecidableEq

abbrev LocationTable := KeyMap Location LocationRow

def checkFileType (fileType : SectorFileType) : Bool :=
  FileType.pathTypes.any fun fileTypeValid => fileTypeValid.bit &&& fileType = 0

variable (table : LocationTable)

/-- A new location starts without locks; a known one may become primary. -/
def storageDeclareSector (location : Location) (primary : Bool) : Go LocationTable :=
  if checkFileType location.fileType then
    match table.get location with
    | none => .ok (table.put location { isPrimary := primary })
    | some row =>
      if row.isPrimary = false ∧ primary = true then
        .ok (table.put location { row with isPrimary := true })
      else .ok table
  else fail "invalid filetype"

def storageDropSector (location : Location) : Go LocationTable :=
  if checkFileType location.fileType then .ok (table.remove location)
  else fail "invalid filetype"

def lockTimeOut : Nat := 300 * 10 ^ 6

def isLocked (now : Nat) : Option Nat → Bool
  | none => false
  | some time => now < time + lockTimeOut

def SectorFileType.anyOf (types : SectorFileType) (fileType : SectorFileType) : Bool :=
  types.allSet.any fun single => single.bit = fileType

def Location.isOf (location : Location) (sid : SectorId) (types : SectorFileType) : Bool :=
  location.sid = sid && types.anyOf location.fileType

/-- The rows folded into one entry for each file type: a later row replaces an earlier one. -/
def lockMap (rows : List (Location × LocationRow)) : SectorFileType → Locks :=
  rows.foldl (fun locks row => Function.update locks row.1.fileType row.2.toLocks) fun _ => {}

def fileTypes : Nat := 7

/-- `%v` of a sector id. -/
def sectorText (sid : SectorId) : String :=
  "\x7b" ++ s!"{sid.miner} {sid.number}" ++ "\x7d"

def checkWriteLock (now : Nat) (sid : SectorId) (locks : SectorFileType → Locks)
    (wft : FileType) : Go Unit :=
  if isLocked now (locks wft.bit).writeTs || isLocked now (locks wft.bit).readTs then
    fail (s!"cannot acquire writelock for sector {sectorText sid} filetype {wft.bit} " ++
      "already locked: already locked")
  else .ok ()

def checkReadLock (now : Nat) (sid : SectorId) (locks : SectorFileType → Locks)
    (rft : FileType) : Go Unit :=
  if isLocked now (locks rft.bit).writeTs then
    fail (s!"cannot acquire read lock for sector {sectorText sid} filetype {rft.bit} " ++
      "already locked for writing: already locked")
  else .ok ()

def acquireWriteLocks (sid : SectorId) (write : SectorFileType) (now : Nat) (owner : Owner) :
    LocationTable :=
  table.update fun location row =>
    if location.isOf sid write then { row with writeTs := some now, writeLockOwner := some owner }
    else row

def acquireReadLocks (sid : SectorId) (read : SectorFileType) (now : Nat) : LocationTable :=
  table.update fun location row =>
    if location.isOf sid read then { row with readTs := some now, readRefs := row.readRefs + 1 }
    else row

/-- `DBIndex.lock`, with the rows in the order in which `SELECT` returned them. -/
def lock (now : Nat) (sid : SectorId) (read write : SectorFileType) (owner : Owner)
    (rows : List (Location × LocationRow)) : Go (Bool × LocationTable) :=
  if read ||| write = 0 then .ok (false, table)
  else if read ||| write > 2 ^ fileTypes - 1 then fail "unknown file types specified"
  else do
    forEach write.allSet (checkWriteLock now sid (lockMap rows))
    forEach read.allSet (checkReadLock now sid (lockMap rows))
    .ok (true, acquireReadLocks (acquireWriteLocks table sid write now owner) sid read now)

def releaseWriteLocks (sid : SectorId) (write : SectorFileType) (owner : Owner) : LocationTable :=
  table.update fun location row =>
    if location.isOf sid write && row.writeLockOwner = some owner then
      { row with writeTs := none, writeLockOwner := none }
    else row

def releaseReadLocks (sid : SectorId) (read : SectorFileType) : LocationTable :=
  table.update fun location row =>
    if location.isOf sid read then
      { row with
        readRefs := row.readRefs - 1
        readTs := if row.readRefs - 1 = 0 then none else row.readTs }
    else row

def unlock (sid : SectorId) (read write : SectorFileType) (owner : Owner) :
    Go (Bool × LocationTable) :=
  if read ||| write = 0 then .ok (false, table)
  else if read ||| write > 2 ^ fileTypes - 1 then fail "unknown file types specified"
  else .ok (true, releaseReadLocks (releaseWriteLocks table sid write owner) sid read)

structure Hold where
  sid : SectorId
  read : SectorFileType
  write : SectorFileType
  since : Nat
  deriving DecidableEq

def Hold.reads (hold : Hold) (location : Location) : Bool := location.isOf hold.sid hold.read

def Hold.writes (hold : Hold) (location : Location) : Bool := location.isOf hold.sid hold.write

structure LockState where
  table : LocationTable
  clock : Nat
  holds : KeyMap Owner Hold

inductive LockAction where
  | declare (location : Location) (primary : Bool)
  | drop (location : Location)
  | lock (owner : Owner) (sid : SectorId) (read write : SectorFileType)
      (rows : List (Location × LocationRow))
  | unlock (owner : Owner)
  | tick (microseconds : Nat)

namespace LockState

def selected (state : LockState) (sid : SectorId) (types : SectorFileType) :
    List (Location × LocationRow) :=
  state.table.entries.filter fun row => row.1.isOf sid types

/-- A call that returns an error changes nothing. -/
def step (state : LockState) : LockAction → Option LockState
  | .declare location primary =>
    match storageDeclareSector state.table location primary with
    | .ok table => some { state with table := table }
    | .error _ => some state
  | .drop location =>
    match storageDropSector state.table location with
    | .ok table => some { state with table := table }
    | .error _ => some state
  | .lock owner sid read write rows =>
    if rows.Perm (state.selected sid (read ||| write)) ∧ state.holds.get owner = none then
      match Paths.lock state.table state.clock sid read write owner rows with
      | .ok (true, table) => some { state with
          table := table
          holds := state.holds.put owner ⟨sid, read, write, state.clock⟩ }
      | _ => some state
    else none
  | .unlock owner =>
    match state.holds.get owner with
    | none => none
    | some hold =>
      match Paths.unlock state.table hold.sid hold.read hold.write owner with
      | .ok (_, table) => some { state with
          table := table
          holds := state.holds.remove owner }
      | .error _ => some state
  | .tick microseconds => some { state with clock := state.clock + microseconds }

def Unlocked (state : LockState) : Prop :=
  state.holds = .empty ∧ ∀ location row, (location, row) ∈ state.table.entries → row.toLocks = {}

end LockState

end Curio.Paths
