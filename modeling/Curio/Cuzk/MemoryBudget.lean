import Curio.Contract
import Curio.StepMachine

/-! The memory budget of the proving engine: `MemoryBudget` and `MemoryReservation` of
`cuzk-core/src/memory.rs` with the caches that hold permanent shares of it, `PceCache` of
`cuzk-core/src/pipeline.rs` and `SrsManager` of `cuzk-core/src/srs_manager.rs`.

A step is one change of the counter with what the same call does under its lock; a failed attempt
to acquire takes two, the addition and its undoing. Words wrap as in a release build. -/

namespace Curio.Cuzk

inductive CircuitId where
  | porep32G
  | porep64G
  | windowPost32G
  | winningPost32G
  | snapDeals32G
  | snapDeals64G
  deriving DecidableEq

def CircuitId.all : Finset CircuitId :=
  {.porep32G, .porep64G, .windowPost32G, .winningPost32G, .snapDeals32G, .snapDeals64G}

theorem CircuitId.mem_all (circuitId : CircuitId) : circuitId ∈ all := by
  cases circuitId <;> simp [all]

instance : Fintype CircuitId := ⟨CircuitId.all, CircuitId.mem_all⟩

/-- Who holds a reservation: a proof, which may give back parts, or a call that fills a cache. The
PCE calls reserve the size that they go on with. -/
inductive Holder where
  | proof
  | pceInsert (circuitId : CircuitId) (size : UInt64)
  | pceLoad (circuitId : CircuitId) (fileSize : UInt64)
  | srsLoad (circuitId : CircuitId)
  deriving DecidableEq

def Holder.asksFor : Holder → UInt64 → Bool
  | .proof, _ => true
  | .pceInsert _ size, amount => amount = size
  | .pceLoad _ fileSize, amount => amount = fileSize
  | .srsLoad _, _ => true

structure MemoryReservation where
  holder : Holder
  remaining : UInt64
  deriving DecidableEq

/-- What a cached entry was charged is known to the model only: the budget that its load has taken
and not given back. -/
structure PceCacheEntry where
  sizeBytes : UInt64
  charged : Nat
  deriving DecidableEq

/-- A PCE load between the addition of a failed `try_acquire` and its undoing; it has the lock of
the cache. -/
structure Adjustment where
  circuitId : CircuitId
  fileSize : UInt64
  actualSize : UInt64
  reservation : MemoryReservation
  deriving DecidableEq

structure Memory where
  totalBytes : UInt64
  usedBytes : UInt64
  reservations : List MemoryReservation
  /-- The amounts of attempts between their addition and its undoing. -/
  undoing : List UInt64
  adjusting : Option Adjustment
  pce : CircuitId → Option PceCacheEntry
  /-- What a loaded SRS was charged, which the manager does not keep. -/
  srs : CircuitId → Option Nat
  /-- The sizes of the parameter files. -/
  srsFile : CircuitId → Option UInt64

namespace Memory

def new (totalBytes : UInt64) (srsFile : CircuitId → Option UInt64) : Memory :=
  ⟨totalBytes, 0, [], [], none, fun _ => none, fun _ => none, srsFile⟩

variable (st : Memory)

def releaseInternal (amount : UInt64) : Memory :=
  if amount = 0 then st else { st with usedBytes := st.usedBytes - amount }

/-- `Drop`, also where a call returns early and its reservation goes out of scope. -/
def dropReservation (r : MemoryReservation) : Memory :=
  ({ st with reservations := st.reservations.erase r } : Memory).releaseInternal r.remaining

/-- The first part of `acquire` and of `try_acquire`; what does not fit is undone in a second. -/
def attempt (holder : Holder) (amount : UInt64) : Memory :=
  if amount = 0 then { st with reservations := ⟨holder, 0⟩ :: st.reservations }
  else
    let old := st.usedBytes
    let added : Memory := { st with usedBytes := old + amount }
    if old + amount ≤ st.totalBytes then
      { added with reservations := ⟨holder, amount⟩ :: added.reservations }
    else { added with undoing := amount :: added.undoing }

def undo (amount : UInt64) : Memory :=
  { st with
    usedBytes := st.usedBytes - amount
    undoing := st.undoing.erase amount }

/-- More than what is left is an assertion that fails when the reservation is already changed. -/
def release (r : MemoryReservation) (amount : UInt64) : Memory :=
  if amount = 0 then st
  else
    let taken : Memory :=
      { st with
        reservations := { r with remaining := r.remaining - amount } :: st.reservations.erase r }
    if amount ≤ r.remaining then taken.releaseInternal amount else taken

def cachePce (circuitId : CircuitId) (sizeBytes : UInt64) (charged : Nat) : Memory :=
  { st with pce := Function.update st.pce circuitId (some ⟨sizeBytes, charged⟩) }

def removed (r : MemoryReservation) : Memory :=
  { st with reservations := st.reservations.erase r }

def insertPce (r : MemoryReservation) (circuitId : CircuitId) (size : UInt64) : Memory :=
  if (st.pce circuitId).isSome then st.dropReservation r
  else (st.removed r).cachePce circuitId size r.remaining.toNat

/-- The part of `load_from_disk` under the lock, with the size in memory. -/
def loadPce (r : MemoryReservation) (circuitId : CircuitId) (fileSize actualSize : UInt64) :
    Memory :=
  if (st.pce circuitId).isSome then st.dropReservation r
  else
    let trackedSize := max actualSize fileSize
    if fileSize < actualSize then
      let extra := actualSize - fileSize
      let added : Memory := { st.removed r with usedBytes := st.usedBytes + extra }
      if st.usedBytes + extra ≤ st.totalBytes then
        added.cachePce circuitId trackedSize (r.remaining.toNat + extra.toNat)
      else { added with adjusting := some ⟨circuitId, fileSize, actualSize, r⟩ }
    else if actualSize < fileSize then
      ((st.removed r).releaseInternal (fileSize - actualSize)).cachePce circuitId trackedSize
        (r.remaining.toNat - (fileSize - actualSize).toNat)
    else (st.removed r).cachePce circuitId trackedSize r.remaining.toNat

/-- The rest of `load_from_disk` where there was no room for the difference. -/
def settle (a : Adjustment) : Memory :=
  ({ st with
      usedBytes := st.usedBytes - (a.actualSize - a.fileSize)
      adjusting := none } : Memory).cachePce a.circuitId (max a.actualSize a.fileSize)
    a.reservation.remaining.toNat

def evictPce (circuitId : CircuitId) (inUse : Bool) : Memory :=
  match st.pce circuitId with
  | none => st
  | some entry =>
    if inUse then st
    else
      ({ st with pce := Function.update st.pce circuitId none } : Memory).releaseInternal
        entry.sizeBytes

/-- `ensure_loaded` with a reservation, its own or that of the caller. -/
def ensureLoaded (r : MemoryReservation) (circuitId : CircuitId) : Memory :=
  if (st.srs circuitId).isSome then st.dropReservation r
  else
    match st.srsFile circuitId with
    | none => st.dropReservation r
    | some _ =>
      { st.removed r with srs := Function.update st.srs circuitId (some r.remaining.toNat) }

/-- What is given back is the size that the file has now. -/
def evictSrs (circuitId : CircuitId) (inUse : Bool) : Memory :=
  match st.srs circuitId with
  | none => st
  | some _ =>
    if inUse then st
    else
      ({ st with srs := Function.update st.srs circuitId none } : Memory).releaseInternal
        ((st.srsFile circuitId).getD 0)

inductive Action where
  | attempt (holder : Holder) (amount : UInt64)
  | undo (amount : UInt64)
  | release (r : MemoryReservation) (amount : UInt64)
  | drop (r : MemoryReservation)
  | insertPce (r : MemoryReservation)
  | loadPce (r : MemoryReservation) (actualSize : UInt64)
  | settle
  | evictPce (circuitId : CircuitId) (inUse : Bool)
  | ensureLoaded (r : MemoryReservation)
  | evictSrs (circuitId : CircuitId) (inUse : Bool)
  | replaceFile (circuitId : CircuitId) (size : Option UInt64)

/-- The calls on the PCE cache wait while its lock is held. -/
def step : Action → Option Memory
  | .attempt holder amount =>
    if holder.asksFor amount then some (st.attempt holder amount) else none
  | .undo amount => if amount ∈ st.undoing then some (st.undo amount) else none
  | .release r amount =>
    if r ∈ st.reservations ∧ r.holder = .proof then some (st.release r amount) else none
  | .drop r => if r ∈ st.reservations then some (st.dropReservation r) else none
  | .insertPce r =>
    match r.holder with
    | .pceInsert circuitId size =>
      if r ∈ st.reservations ∧ st.adjusting = none then
        some (st.insertPce r circuitId size)
      else none
    | _ => none
  | .loadPce r actualSize =>
    match r.holder with
    | .pceLoad circuitId fileSize =>
      if r ∈ st.reservations ∧ st.adjusting = none then
        some (st.loadPce r circuitId fileSize actualSize)
      else none
    | _ => none
  | .settle => st.adjusting.map st.settle
  | .evictPce circuitId inUse =>
    if st.adjusting = none then some (st.evictPce circuitId inUse) else none
  | .ensureLoaded r =>
    match r.holder with
    | .srsLoad circuitId =>
      if r ∈ st.reservations then some (st.ensureLoaded r circuitId) else none
    | _ => none
  | .evictSrs circuitId inUse => some (st.evictSrs circuitId inUse)
  | .replaceFile circuitId size =>
    some { st with srsFile := Function.update st.srsFile circuitId size }

end Memory

end Curio.Cuzk
