import Curio.Pdp.ReorgCheck
import Curio.StepMachine

/-! The deletion of PDP data sets: `pdp_delete_data_set` and the components that write it, in
`tasks/pdpv0` (the terminate, delete and cleanup tasks, their watchers, the chain sync and the reorg
check) and in `tasks/pay` (the payment watcher).

A step is what one component does to one row, with what it has just read from the contracts, or one
pass of a watcher over the rows. The contracts may change at any time between two steps. A task id
is given to one row, and a hash is its value. -/

namespace Curio.Pdp.Deletion

open GoRuntime
open ReorgCheck (Hash SendReason WaitStatus pdpv0SendReasons)

abbrev DataSetId := Nat

abbrev TaskId := Nat

inductive ReadError where
  | notFound
  | failed (message : String)
  deriving DecidableEq

structure Verifier where
  dataSetLive : Except ReadError Bool
  getNextPieceId : Except ReadError Nat
  getNextChallengeEpoch : Except ReadError Nat

structure CleanupState where
  live : Bool
  cleanupMode : Bool
  nextPieceID : Nat
  deriving DecidableEq

def CleanupState.finalized (state : CleanupState) : Bool :=
  !state.live && !state.cleanupMode && state.nextPieceID == 0

def finalizedDataSetCleanupState : CleanupState := ⟨false, false, 0⟩

def cleanupModeSentinel : Nat := 2 ^ 256 - 1

def readDataSetCleanupState (verifier : Verifier) : Call CleanupState :=
  match verifier.dataSetLive with
  | .error .notFound => .ok finalizedDataSetCleanupState
  | .error (.failed message) => .error message
  | .ok live =>
    match verifier.getNextPieceId with
    | .error .notFound => .ok finalizedDataSetCleanupState
    | .error (.failed message) => .error message
    | .ok nextPieceID =>
      if live = false ∧ 0 < nextPieceID then
        match verifier.getNextChallengeEpoch with
        | .error .notFound => .ok finalizedDataSetCleanupState
        | .error (.failed message) => .error message
        | .ok nextChallengeEpoch =>
          .ok ⟨live, nextChallengeEpoch == cleanupModeSentinel, nextPieceID⟩
      else .ok ⟨live, false, nextPieceID⟩

inductive RailError where
  | inactiveOrSettled
  | failed (message : String)
  deriving DecidableEq

structure Rail where
  endEpoch : Nat
  settledUpTo : Nat
  deriving DecidableEq

/-- What the contracts answer for a data set: the end epoch and the version of the service, the
state of the verifier and the payment rail. -/
structure Contracts where
  pdpEndEpoch : Call Nat
  supportsClientTermination : Call Bool
  verifier : Verifier
  rail : Except RailError Rail

/-- The rail is settled to its end, or the lookup reverts since it has been zeroed. -/
def Contracts.railFinal (contracts : Contracts) : Bool :=
  match contracts.rail with
  | .error .inactiveOrSettled => true
  | .error (.failed _) => false
  | .ok rail => decide (0 < rail.endEpoch) && rail.endEpoch == rail.settledUpTo

/-- `pdp_delete_data_set`; a row of a client has its extra data by a constraint of the table. -/
structure Row where
  clientRequestedTermination : Bool := false
  terminateServiceTaskId : Option TaskId := none
  clientTerminateServiceTaskId : Option TaskId := none
  afterTerminateService : Bool := false
  terminateTxHash : Option Hash := none
  serviceTerminationEpoch : Option Nat := none
  deletionAllowed : Bool := false
  deleteDataSetTaskId : Option TaskId := none
  afterDeleteDataSet : Bool := false
  deleteTxHash : Option Hash := none
  cleanupPiecesTaskId : Option TaskId := none
  cleanupPiecesTxHash : Option Hash := none
  terminated : Bool := false
  deriving DecidableEq

structure Wait where
  txStatus : WaitStatus
  txSuccess : Option Bool := none
  deriving DecidableEq

/-- What the three watchers make of a wait: a success, a failure, or nothing. -/
def Wait.outcome (wait : Wait) : Option Bool :=
  if wait.txStatus = .confirmed ∧ wait.txSuccess = some true then some true
  else if wait.txStatus = .failed ∨ wait.txStatus = .confirmed ∧ wait.txSuccess = some false then
    some false
  else none

/-- What a step makes of a row: the row after it, none where it is deleted, a transaction that is
sent and recorded, and whether the data set itself is deleted. -/
structure Outcome where
  row : Option Row
  sent : Option (Hash × SendReason) := none
  dropsDataSet : Bool := false

/-- The row and, by cascade, all local rows of the data set. -/
def cleanupFinalizedDataSet : Outcome := { row := none, dropsDataSet := true }

variable (contracts : Contracts) (row : Row)

namespace TerminateTask

def schedule (task : TaskId) (row : Row) : Option Outcome :=
  if row.terminateServiceTaskId = none ∧ row.afterTerminateService = false then
    some { row := some { row with
      terminateServiceTaskId := some task
      clientTerminateServiceTaskId :=
        if row.clientRequestedTermination then some task else row.clientTerminateServiceTaskId } }
  else none

def Do (task : TaskId) (hash : Hash) (row : Row) : Option Outcome :=
  if row.terminateServiceTaskId = some task then
    match contracts.pdpEndEpoch with
    | .error _ => none
    | .ok epoch =>
      if epoch ≠ 0 then
        some { row := some { row with
          afterTerminateService := true
          terminateServiceTaskId := none
          clientTerminateServiceTaskId := none
          serviceTerminationEpoch := some epoch } }
      else if row.clientRequestedTermination = true ∧
          contracts.supportsClientTermination ≠ .ok true then none
      else
        some {
          row := some { row with
            terminateTxHash := some hash
            afterTerminateService := true
            terminateServiceTaskId := none
            clientTerminateServiceTaskId := none }
          sent := some (hash, .pdpTerminateSvc) }
  else none

end TerminateTask

/-- The hash that `processTerminations` looks up, where the row is selected. -/
def Row.awaitsTermination : Option Hash :=
  if row.serviceTerminationEpoch = none ∧ row.afterTerminateService = true then row.terminateTxHash
  else none

def markServiceTerminationConfirmed (epoch : Nat) (row : Row) : Outcome :=
  { row := some { row with
      serviceTerminationEpoch := some epoch
      terminateServiceTaskId := none
      clientTerminateServiceTaskId := none } }

def resetFailedProviderTermination : Outcome :=
  { row := some { row with
      terminateTxHash := none
      afterTerminateService := false
      terminateServiceTaskId := none } }

/-- One pass of the loop of `processSuccessfulTerminations`; nothing where it returns an error. -/
def successfulTermination : Option Outcome :=
  match contracts.pdpEndEpoch with
  | .error _ => none
  | .ok epoch => if epoch = 0 then none else some (markServiceTerminationConfirmed epoch row)

/-- The state of the service decides; where it is not terminated, the row of a client is deleted and
that of the provider starts again. -/
def reconcileTermination : Option Outcome :=
  match contracts.pdpEndEpoch with
  | .error _ => none
  | .ok epoch =>
    if epoch ≠ 0 then some (markServiceTerminationConfirmed epoch row)
    else if row.clientRequestedTermination then some { row := none }
    else some (resetFailedProviderTermination row)

def failedTermination : Option Outcome :=
  reconcileTermination contracts row

def syncMissingTermination : Option Outcome :=
  reconcileTermination contracts row

def Row.readyForDelete (blockNumber : Nat) (row : Row) : Bool :=
  decide (row.deleteDataSetTaskId = none) && !row.afterDeleteDataSet && row.afterTerminateService &&
    row.serviceTerminationEpoch.any (fun epoch => epoch ≤ blockNumber) && row.deletionAllowed

namespace DeleteTask

def schedule (blockNumber : Nat) (task : TaskId) (row : Row) : Option Outcome :=
  if row.readyForDelete blockNumber then
    some { row := some { row with deleteDataSetTaskId := some task } }
  else none

def Do (task : TaskId) (hash : Hash) (row : Row) : Option Outcome :=
  if row.deleteDataSetTaskId = some task then
    match readDataSetCleanupState contracts.verifier with
    | .error _ => none
    | .ok state =>
      if state.finalized then some cleanupFinalizedDataSet
      else if state.cleanupMode then
        some { row := some { row with
          afterDeleteDataSet := true
          deleteDataSetTaskId := none
          deleteTxHash := none } }
      else if state.live = false then none
      else
        some {
          row := some { row with
            deleteTxHash := some hash
            afterDeleteDataSet := true
            deleteDataSetTaskId := none }
          sent := some (hash, .pdpTerminateDataSet) }
  else none

end DeleteTask

/-- The hash that `processPendingDeletes` looks up, where the row is selected. -/
def Row.awaitsDelete : Option Hash :=
  if row.serviceTerminationEpoch ≠ none ∧ row.terminated = false ∧ row.afterDeleteDataSet = true then
    row.deleteTxHash
  else none

def markDataSetDeleteConfirmed : Outcome :=
  { row := some { row with
      deleteTxHash := none
      afterDeleteDataSet := true
      deleteDataSetTaskId := none } }

def resetDelete : Outcome :=
  { row := some { row with
      deleteTxHash := none
      afterDeleteDataSet := false
      deleteDataSetTaskId := none } }

/-- One pass of the loop of `processSuccessfulDeletes`. -/
def successfulDelete : Option Outcome :=
  match readDataSetCleanupState contracts.verifier with
  | .error _ => none
  | .ok state =>
    if state.live then none
    else if state.finalized then some cleanupFinalizedDataSet
    else if state.cleanupMode then some (markDataSetDeleteConfirmed row)
    else none

/-- One pass of the loop of `processFailedDeletes`, which goes on where the read fails. -/
def failedDelete : Option Outcome :=
  match readDataSetCleanupState contracts.verifier with
  | .error _ => some (resetDelete row)
  | .ok state =>
    if state.finalized then some cleanupFinalizedDataSet
    else if state.cleanupMode then some (markDataSetDeleteConfirmed row)
    else some (resetDelete row)

def syncMissingDelete : Option Outcome :=
  match readDataSetCleanupState contracts.verifier with
  | .error _ => none
  | .ok state =>
    if state.finalized then some cleanupFinalizedDataSet
    else if state.cleanupMode then some (markDataSetDeleteConfirmed row)
    else some (resetDelete row)

def Row.readyForCleanup : Bool :=
  decide (row.cleanupPiecesTaskId = none) && decide (row.cleanupPiecesTxHash = none) &&
    row.afterDeleteDataSet && decide (row.deleteTxHash = none) &&
    row.serviceTerminationEpoch.isSome && !row.terminated

def reasonCleanupPieces : SendReason := .other "pdp-cleanup-pieces"

def resetCleanup : Outcome :=
  { row := some { row with
      cleanupPiecesTaskId := none
      cleanupPiecesTxHash := none
      afterDeleteDataSet := false
      deleteTxHash := none
      deleteDataSetTaskId := none } }

def clearCleanupTxHash : Outcome :=
  { row := some { row with cleanupPiecesTxHash := none, cleanupPiecesTaskId := none } }

namespace CleanupTask

def schedule (task : TaskId) (row : Row) : Option Outcome :=
  if row.readyForCleanup then some { row := some { row with cleanupPiecesTaskId := some task } }
  else none

def Do (task : TaskId) (hash : Hash) (row : Row) : Option Outcome :=
  if row.cleanupPiecesTaskId = some task then
    match readDataSetCleanupState contracts.verifier with
    | .error _ => none
    | .ok state =>
      if state.finalized then some cleanupFinalizedDataSet
      else if state.live then some (resetCleanup row)
      else if state.cleanupMode = false then none
      -- the size of the batch
      else if state.nextPieceID = 0 then none
      else
        some {
          row := some { row with cleanupPiecesTxHash := some hash, cleanupPiecesTaskId := none }
          sent := some (hash, reasonCleanupPieces) }
  else none

end CleanupTask

/-- The hash that `processPendingCleanupPieces` looks up, where the row is selected. -/
def Row.awaitsCleanup : Option Hash :=
  if row.serviceTerminationEpoch ≠ none ∧ row.terminated = false ∧ row.afterDeleteDataSet = true then
    row.cleanupPiecesTxHash
  else none

/-- What a confirmed batch and a missing wait have in common. -/
def reconcileCleanup : Option Outcome :=
  match readDataSetCleanupState contracts.verifier with
  | .error _ => none
  | .ok state =>
    if state.finalized then some cleanupFinalizedDataSet
    else if state.cleanupMode then some (clearCleanupTxHash row)
    else if state.live then some (resetCleanup row)
    else none

def successfulCleanup : Option Outcome :=
  reconcileCleanup contracts row

def syncMissingCleanup : Option Outcome :=
  reconcileCleanup contracts row

/-- One pass of the loop of `processFailedCleanupPieces`, which goes on where the read fails. -/
def failedCleanup : Option Outcome :=
  match readDataSetCleanupState contracts.verifier with
  | .error _ => some (clearCleanupTxHash row)
  | .ok state =>
    if state.finalized then some cleanupFinalizedDataSet
    else if state.live then some (resetCleanup row)
    else some (clearCleanupTxHash row)

def ensureDataSetDeletion : Outcome :=
  { row := some { row with deletionAllowed := true } }

def Row.epochElapsed (blockNumber : Nat) (row : Row) : Bool :=
  row.afterTerminateService && row.serviceTerminationEpoch.any (fun epoch => epoch ≤ blockNumber)

/-- `syncFinalizedDataSetDeletionRails`, which reads the rail id from the service first -/
def syncRail (blockNumber : Nat) (row : Row) : Option Outcome :=
  if row.epochElapsed blockNumber = true ∧ row.deletionAllowed = false then
    match contracts.pdpEndEpoch with
    | .error _ => none
    | .ok _ => if contracts.railFinal then some (ensureDataSetDeletion row) else none
  else none

/-- What `verifySettle` does to a row that exists; it does not ask how far the pipeline is where the
rail can be read. -/
def settleRail (blockNumber : Nat) (row : Row) : Option Outcome :=
  match contracts.rail with
  | .error .inactiveOrSettled =>
    if row.epochElapsed blockNumber then some (ensureDataSetDeletion row) else none
  | .error (.failed _) => none
  | .ok rail =>
    if 0 < rail.endEpoch ∧ rail.endEpoch = rail.settledUpTo then some (ensureDataSetDeletion row)
    else none

def syncVerifier : Option Outcome :=
  if row.deletionAllowed = true ∧ row.serviceTerminationEpoch ≠ none ∧ row.terminated = false then
    match readDataSetCleanupState contracts.verifier with
    | .error _ => none
    | .ok state =>
      if state.live then none
      else if state.finalized then some cleanupFinalizedDataSet
      else if state.cleanupMode = true ∧ row.afterDeleteDataSet = false then
        some { row := some { row with
          afterDeleteDataSet := true
          deleteDataSetTaskId := none
          deleteTxHash := none } }
      else none
  else none

/-- The tables, with the data sets that have ever had a row, and the chain. `dataSets` stands for
`pdp_data_sets` and all that is deleted with it. -/
structure State where
  rows : DataSetId → Option Row
  ids : List DataSetId
  dataSets : DataSetId → Bool
  sends : List (Hash × SendReason)
  waits : Hash → Option Wait
  contracts : DataSetId → Contracts
  blockNumber : Nat

def State.apply (st : State) (id : DataSetId) (outcome : Outcome) : State :=
  { st with
    rows := Function.update st.rows id outcome.row
    dataSets := if outcome.dropsDataSet then Function.update st.dataSets id false else st.dataSets
    sends := st.sends ++ outcome.sent.toList
    waits :=
      match outcome.sent with
      | none => st.waits
      | some (hash, _) => Function.update st.waits hash (some { txStatus := .pending }) }

def passRows (effect : Contracts → Row → Option Outcome) :
    List DataSetId → State → State × Bool
  | [], st => (st, true)
  | id :: rest, st =>
    match st.rows id with
    | none => passRows effect rest st
    | some row =>
      match effect (st.contracts id) row with
      | none => (st, false)
      | some outcome => passRows effect rest (st.apply id outcome)

def State.ended (st : State) (awaits : Row → Option Hash) (success : Bool) (id : DataSetId) : Bool :=
  (((st.rows id).bind awaits).bind st.waits).bind Wait.outcome == some success

/-- An error of the first loop ends the pass. -/
def processTerminations (order : List DataSetId) (st : State) : State :=
  match passRows successfulTermination (order.filter (st.ended Row.awaitsTermination true)) st with
  | (next, false) => next
  | (next, true) =>
    (passRows failedTermination (order.filter (st.ended Row.awaitsTermination false)) next).1

/-- Both loops are run, whatever the first one returns. -/
def processBoth (successful failed : Contracts → Row → Option Outcome) (awaits : Row → Option Hash)
    (order : List DataSetId) (st : State) : State :=
  let next := (passRows successful (order.filter (st.ended awaits true)) st).1
  (passRows failed (order.filter (st.ended awaits false)) next).1

def processPendingDeletes : List DataSetId → State → State :=
  processBoth successfulDelete failedDelete Row.awaitsDelete

def processPendingCleanupPieces : List DataSetId → State → State :=
  processBoth successfulCleanup failedCleanup Row.awaitsCleanup

/-- What a task, the chain sync or the payment watcher does to one row. -/
inductive RowAction where
  | scheduleTerminate (task : TaskId)
  | doTerminate (task : TaskId) (hash : Hash)
  | scheduleDelete (task : TaskId)
  | doDelete (task : TaskId) (hash : Hash)
  | scheduleCleanup (task : TaskId)
  | doCleanup (task : TaskId) (hash : Hash)
  | syncTermination
  | syncDelete
  | syncCleanup
  | syncRail
  | syncVerifier
  | settleRail

def State.missing (st : State) (awaited : Option Hash) : Bool :=
  awaited.any (fun hash => (st.waits hash).isNone)

def rowOutcome (st : State) (contracts : Contracts) (row : Row) : RowAction → Option Outcome
  | .scheduleTerminate task => TerminateTask.schedule task row
  | .doTerminate task hash => TerminateTask.Do contracts task hash row
  | .scheduleDelete task => DeleteTask.schedule st.blockNumber task row
  | .doDelete task hash => DeleteTask.Do contracts task hash row
  | .scheduleCleanup task => CleanupTask.schedule task row
  | .doCleanup task hash => CleanupTask.Do contracts task hash row
  | .syncTermination =>
    if st.missing row.awaitsTermination then syncMissingTermination contracts row else none
  | .syncDelete => if st.missing row.awaitsDelete then syncMissingDelete contracts row else none
  | .syncCleanup => if st.missing row.awaitsCleanup then syncMissingCleanup contracts row else none
  | .syncRail => Deletion.syncRail contracts st.blockNumber row
  | .syncVerifier => Deletion.syncVerifier contracts row
  | .settleRail => Deletion.settleRail contracts st.blockNumber row

/-- The foreign keys of the table, when the engine deletes a task: three of them are set to null,
the one of a client cascades. -/
def Row.endTask (task : TaskId) (row : Row) : Option Row :=
  if row.clientTerminateServiceTaskId = some task then none
  else some { row with
    terminateServiceTaskId := row.terminateServiceTaskId.filter (· ≠ task)
    deleteDataSetTaskId := row.deleteDataSetTaskId.filter (· ≠ task)
    cleanupPiecesTaskId := row.cleanupPiecesTaskId.filter (· ≠ task) }

inductive Action where
  | row (id : DataSetId) (action : RowAction)
  | watchTerminations (order : List DataSetId)
  | watchDeletes (order : List DataSetId)
  | watchCleanups (order : List DataSetId)
  /-- A task has succeeded, or has failed for the last time. -/
  | endTask (task : TaskId)
  /-- `EnsureServiceTermination`, or the request of a client -/
  | request (id : DataSetId) (client : Bool)
  | createDataSet (id : DataSetId)
  /-- A transaction is sent and the node dies before it is recorded. -/
  | crashAfterSend (hash : Hash) (reason : SendReason)
  | confirm (hash : Hash) (success : Bool)
  | fail (hash : Hash)
  /-- `EthMessageWaitsGCTask` -/
  | pruneWait (hash : Hash)
  /-- The reorg check does not find a confirmed transaction and marks its wait. -/
  | markWaitReorged (hash : Hash)
  | setContracts (id : DataSetId) (contracts : Contracts)
  | setBlockNumber (blockNumber : Nat)

def State.setWait (st : State) (hash : Hash) (wait : Option Wait) : State :=
  { st with waits := Function.update st.waits hash wait }

def State.step (st : State) : Action → Option State
  | .row id action =>
    match st.rows id with
    | none => none
    | some row =>
      match rowOutcome st (st.contracts id) row action with
      | none => none
      | some outcome =>
        -- the hash of a transaction is new
        if outcome.sent.all (fun sent => sent.1 ∉ st.sends.map Prod.fst) then
          some (st.apply id outcome)
        else none
  | .watchTerminations order =>
    if order.Perm st.ids then some (processTerminations order st) else none
  | .watchDeletes order =>
    if order.Perm st.ids then some (processPendingDeletes order st) else none
  | .watchCleanups order =>
    if order.Perm st.ids then some (processPendingCleanupPieces order st) else none
  | .endTask task => some { st with rows := fun id => (st.rows id).bind (Row.endTask task) }
  | .request id client =>
    if st.rows id = none then
      some { st with
        rows := Function.update st.rows id (some { clientRequestedTermination := client })
        ids := if id ∈ st.ids then st.ids else id :: st.ids }
    else none
  | .createDataSet id => some { st with dataSets := Function.update st.dataSets id true }
  | .crashAfterSend hash reason =>
    if hash ∉ st.sends.map Prod.fst then some { st with sends := st.sends ++ [(hash, reason)] }
    else none
  | .confirm hash success =>
    if st.waits hash = some { txStatus := .pending } then
      some (st.setWait hash (some { txStatus := .confirmed, txSuccess := some success }))
    else none
  | .fail hash =>
    if st.waits hash = some { txStatus := .pending } then
      some (st.setWait hash (some { txStatus := .failed }))
    else none
  | .pruneWait hash =>
    if (st.waits hash).any (fun wait => wait.txStatus = .confirmed) then
      some (st.setWait hash none)
    else none
  | .markWaitReorged hash =>
    if st.waits hash = some { txStatus := .confirmed, txSuccess := some true } ∧
        (st.sends.any (fun send => send.1 == hash && pdpv0SendReasons.contains send.2)) then
      some (st.setWait hash (some { txStatus := .reorged }))
    else none
  | .setContracts id contracts =>
    some { st with contracts := Function.update st.contracts id contracts }
  | .setBlockNumber blockNumber => some { st with blockNumber := blockNumber }

end Curio.Pdp.Deletion
