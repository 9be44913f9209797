import Curio.GoRuntime

/-! `ReorgCheckTask` of `tasks/pdpv0/task_reorg_check.go`: the window of send times of a run, the
transactions it takes up, the walk over the canonical chain and the rollback.

A hash is its value: the texts of the tables are compared after lower-casing and trimming. Every
rollback marks the wait and otherwise only logs, so the counts in its summary are left out. -/

namespace Curio.Pdp.ReorgCheck

open GoRuntime

abbrev Time := Int

def second : Time := 1000000000

def minute : Time := 60 * second

def zeroTime : Time := -62135596800 * second

def reorgCheckMinAge : Time := 20 * minute

def reorgCheckMaxLookbackEpochs : Nat := 2000

abbrev Hash := Nat

def hexText (hash : Hash) : String :=
  let digits := Nat.toDigits 16 hash
  "0x" ++ String.ofList (List.replicate (64 - digits.length) '0' ++ digits)

inductive SendReason where
  | pdpMkDataset
  | pdpCreateAndAdd
  | pdpAddPieces
  | pdpDeletePiece
  | pdpProvingInit
  | pdpProvingPeriod
  | pdpProve
  | pdpTerminateSvc
  | pdpTerminateDataSet
  | other (text : String)
  deriving DecidableEq

def SendReason.text : SendReason → String
  | .pdpMkDataset => "pdp-mkdataset"
  | .pdpCreateAndAdd => "pdp-create-and-add"
  | .pdpAddPieces => "pdp-addpieces"
  | .pdpDeletePiece => "pdp-delete-piece"
  | .pdpProvingInit => "pdp-proving-init"
  | .pdpProvingPeriod => "pdp-proving-period"
  | .pdpProve => "pdp-prove"
  | .pdpTerminateSvc => "pdp-terminate-service"
  | .pdpTerminateDataSet => "pdp-terminate-data-set"
  | .other text => text

def pdpv0SendReasons : List SendReason :=
  [.pdpMkDataset, .pdpCreateAndAdd, .pdpAddPieces, .pdpDeletePiece, .pdpProvingInit,
    .pdpProvingPeriod, .pdpProve, .pdpTerminateSvc, .pdpTerminateDataSet]

/-- `message_sends_eth` -/
structure SendRow where
  signedHash : Hash
  sendReason : SendReason
  sendTime : Option Time
  sendSuccess : Option Bool
  deriving DecidableEq

inductive WaitStatus where
  | pending
  | confirmed
  | failed
  | reorged
  deriving DecidableEq

/-- `message_waits_eth`, with the `blockHash` of its receipt -/
structure WaitRow where
  signedTxHash : Hash
  txStatus : WaitStatus
  txSuccess : Option Bool := none
  confirmedBlockNumber : Option Nat := none
  receiptBlockHash : Option Hash := none
  deriving DecidableEq

/-- `pdpv0_reorg_events` -/
structure ReorgEvent where
  txHash : Hash
  sendReason : SendReason
  deriving DecidableEq

/-- `harmony_task_history` -/
structure HistoryRow where
  name : String
  result : Bool
  workEnd : Time
  deriving DecidableEq

structure Tables where
  sends : List SendRow
  waits : List WaitRow
  reorgEvents : List ReorgEvent
  deriving DecidableEq

structure Block where
  number : Nat
  parentHash : Hash
  transactions : List Hash
  deriving DecidableEq

structure Receipt where
  blockNumber : Nat
  blockHash : Hash
  deriving DecidableEq

inductive ReceiptError where
  | notFound
  | failed (message : String)
  deriving DecidableEq

/-- `ReorgCheckEthAPI`; `headBlock` is `BlockByNumber(nil)`. -/
structure Node where
  headBlock : Call (Option Block)
  blockByHash : Hash → Call (Option Block)
  transactionReceipt : Hash → Except ReceiptError (Option Receipt)

structure TipSet where
  height : Nat
  minTimestamp : Nat

/-- `build.BlockDelaySecs` and `policy.ChainFinality` -/
structure Network where
  blockDelaySecs : Nat
  chainFinality : Nat

variable (network : Network)

def Network.finalityAge : Time :=
  network.chainFinality * network.blockDelaySecs * second

structure Window where
  since : Time
  upTo : Time
  deriving DecidableEq

def HistoryRow.counts (row : HistoryRow) : Bool := row.name == "PDPv0_ReorgChk" && row.result

def lastSuccessfulRunEnd (history : List HistoryRow) : Option Time :=
  -- ORDER BY work_end DESC LIMIT 1
  match ((history.filter HistoryRow.counts).map HistoryRow.workEnd).max? with
  | none => none
  | some lastEnd => if lastEnd = zeroTime then none else some lastEnd

def epochLookback (head : TipSet) : Time :=
  head.minTimestamp * second - reorgCheckMaxLookbackEpochs * network.blockDelaySecs * second

def reorgCheckTimeWindow (head : TipSet) (now : Time) (history : List HistoryRow) : Window :=
  let upTo := now - reorgCheckMinAge
  match lastSuccessfulRunEnd history with
  | none => ⟨epochLookback network head, upTo⟩
  | some lastEnd =>
    ⟨if lastEnd < epochLookback network head then epochLookback network head else lastEnd, upTo⟩

structure Candidate where
  txHash : Hash
  sendReason : SendReason
  sendTime : Time
  confirmEpoch : Option Nat
  storedBlockHash : Option Hash
  deriving DecidableEq

/-- The send time of a row that meets the conditions both branches of the query share. -/
def SendRow.sentIn (window : Window) (send : SendRow) : Option Time :=
  match send.sendTime with
  | none => none
  | some time =>
    if send.sendSuccess = some true ∧ window.since ≤ time ∧ time ≤ window.upTo ∧
        send.sendReason ∈ pdpv0SendReasons then
      some time
    else none

def confirmedCandidate (window : Window) (headEpoch : Nat) (wait : WaitRow) (send : SendRow) :
    Option Candidate :=
  match send.sentIn window, wait.confirmedBlockNumber with
  | some time, some number =>
    if send.signedHash = wait.signedTxHash ∧ wait.txStatus = .confirmed ∧
        wait.txSuccess = some true ∧ (network.chainFinality : Int) ≤ headEpoch - number then
      some ⟨send.signedHash, send.sendReason, time, some number, wait.receiptBlockHash⟩
    else none
  | _, _ => none

def waitlessCandidate (tables : Tables) (window : Window) (send : SendRow) : Option Candidate :=
  match send.sentIn window with
  | none => none
  | some time =>
    if (∀ wait ∈ tables.waits, wait.signedTxHash ≠ send.signedHash) ∧
        ∀ event ∈ tables.reorgEvents, event.txHash ≠ send.signedHash then
      some ⟨send.signedHash, send.sendReason, time, none, none⟩
    else none

/-- The two branches of the `UNION ALL`. -/
def selectCandidates (tables : Tables) (window : Window) (headEpoch : Nat) : List Candidate :=
  tables.waits.flatMap (fun wait =>
    tables.sends.filterMap (confirmedCandidate network window headEpoch wait)) ++
  tables.sends.filterMap (waitlessCandidate tables window)

/-- What one run meets: the answers of the chain, the clock, the tables and whether the task is
still owned. `askedAt` is the time when the receipt of a hash was not found, `walkSteps` how many
parents the walk may ask for, `workEnd` what the history records as the end of the run. -/
structure Run where
  chainHead : Call TipSet
  now : Time
  node : Node
  askedAt : Hash → Time
  ownedAtCheck : Candidate → Bool
  ownedAtRollback : Candidate → Bool
  walkSteps : Nat
  tables : Tables
  workEnd : Time

structure Confirmation where
  confirmEpoch : Nat := 0
  storedBlockHash : Hash := 0
  ready : Bool := false
  dropped : Bool := false
  deriving DecidableEq

def confirmationForCheck (run : Run) (headEpoch : Nat) (c : Candidate) : Go Confirmation :=
  match c.confirmEpoch, c.storedBlockHash with
  | some confirmEpoch, some storedBlockHash =>
    if (headEpoch : Int) - confirmEpoch < network.chainFinality then .ok {}
    else .ok ⟨confirmEpoch, storedBlockHash, true, false⟩
  | _, _ =>
    match run.node.transactionReceipt c.txHash with
    | .error .notFound =>
      -- a younger send may still be pending
      if run.askedAt c.txHash - c.sendTime < network.finalityAge then .ok {}
      else .ok ⟨0, 0, true, true⟩
    | .error (.failed message) => fail message
    | .ok none => .ok {}
    | .ok (some receipt) =>
      if (headEpoch : Int) - receipt.blockNumber < network.chainFinality then .ok {}
      else .ok ⟨receipt.blockNumber, receipt.blockHash, true, false⟩

structure InclusionCheck where
  txHash : Hash
  confirmHeight : Nat
  deriving DecidableEq

structure Sorted where
  toVerify : List (Candidate × InclusionCheck)
  toRollback : List Candidate

/-- The first loop of `Do`; nothing when the task was lost on the way. -/
def sortCandidates (run : Run) (headEpoch : Nat) : List Candidate → Sorted → Go (Option Sorted)
  | [], sorted => .ok (some sorted)
  | c :: rest, sorted =>
    if run.ownedAtCheck c = false then .ok none
    else do
      let confirmation ← wrap ("confirmation for check " ++ hexText c.txHash)
        (confirmationForCheck network run headEpoch c)
      if confirmation.ready = false then sortCandidates run headEpoch rest sorted
      else if confirmation.dropped then
        sortCandidates run headEpoch rest
          { sorted with toRollback := sorted.toRollback ++ [c] }
      else
        sortCandidates run headEpoch rest
          { sorted with
            toVerify := sorted.toVerify ++ [(c, ⟨c.txHash, confirmation.confirmEpoch⟩)] }

def walk (node : Node) (minHeight : Nat) : Nat → Option Block → List Hash → Go (List Hash)
  | _, none, pending => .ok pending
  | steps, some block, pending =>
    let left := pending.filter (fun hash => hash ∉ block.transactions)
    if left = [] ∨ block.number ≤ minHeight ∨ block.number = 0 then .ok left
    else
      match steps with
      | 0 => .error .hang
      | steps + 1 => do
          let parent ← wrap ("parent block " ++ hexText block.parentHash)
            (ofCall (node.blockByHash block.parentHash))
          walk node minHeight steps parent left

/-- The least height of the checks; `math.MaxUint64` where there is none. -/
def minHeight (checks : List InclusionCheck) : Nat :=
  checks.foldl
    (fun least check => if check.confirmHeight < least then check.confirmHeight else least)
    (2 ^ 64 - 1)

def txsNotIncludedInCanonicalChain (node : Node) (steps : Nat) (checks : List InclusionCheck) :
    Go (Hash → Bool) :=
  if checks = [] then .ok (fun _ => false)
  else do
    let head ← wrap "head block" (ofCall node.headBlock)
    let hashes := checks.map InclusionCheck.txHash
    let pending ← walk node (minHeight checks) steps head hashes
    .ok (fun hash => decide (hash ∈ hashes ∧ hash ∈ pending))

def markWaitReorged (txHash : Hash) (waits : List WaitRow) : List WaitRow :=
  waits.map (fun wait =>
    if wait.signedTxHash = txHash then ⟨txHash, .reorged, none, none, none⟩ else wait)

def rollbackByReasonTx (sendReason : SendReason) (txHash : Hash) (waits : List WaitRow) :
    Go (List WaitRow) :=
  match sendReason with
  | .other text => fail ("unknown send_reason \"" ++ text ++ "\"")
  | _ => .ok (markWaitReorged txHash waits)

/-- One transaction; the tables stay as they are where an earlier run has claimed the hash. -/
def rollbackReorgCandidate (c : Candidate) (tables : Tables) : Go Tables :=
  if ∃ event ∈ tables.reorgEvents, event.txHash = c.txHash then .ok tables
  else do
    let waits ← wrap
      ("reorg rollback " ++ hexText c.txHash ++ " (" ++ c.sendReason.text ++ ")")
      (rollbackByReasonTx c.sendReason c.txHash tables.waits)
    .ok { tables with
      waits := waits, reorgEvents := tables.reorgEvents ++ [⟨c.txHash, c.sendReason⟩] }

def rollbackAll (run : Run) : List Candidate → Tables → Go (Option Tables)
  | [], tables => .ok (some tables)
  | c :: rest, tables =>
    if run.ownedAtRollback c = false then .ok none
    else do
      let tables ← rollbackReorgCandidate c tables
      rollbackAll run rest tables

/-- What a run that is done has looked at, and the tables after it. -/
structure Report where
  window : Window
  candidates : List Candidate
  found : List Candidate
  rolledBack : List Candidate
  tables : Tables

/-- `ReorgCheckTask.Do`: a report for `true, nil`, none for `false, nil`. -/
def Run.Do (history : List HistoryRow) (run : Run) : Go (Option Report) := do
  let head ← wrap "chain head" (ofCall run.chainHead)
  let window := reorgCheckTimeWindow network head run.now history
  let candidates := selectCandidates network run.tables window head.height
  match ← sortCandidates network run head.height candidates ⟨[], []⟩ with
  | none => .ok none
  | some sorted =>
    let notIncluded ← wrap "canonical inclusion walk"
      (txsNotIncludedInCanonicalChain run.node run.walkSteps (sorted.toVerify.map Prod.snd))
    let toRollback := sorted.toRollback ++
      (sorted.toVerify.filter (fun pair => notIncluded pair.2.txHash)).map Prod.fst
    match ← rollbackAll run toRollback run.tables with
    | none => .ok none
    | some tables =>
      .ok (some {
        window := window
        candidates := candidates
        found := (sorted.toVerify.filter (fun pair => !notIncluded pair.2.txHash)).map Prod.fst
        rolledBack := toRollback
        tables := tables })

def Run.record (run : Run) : HistoryRow := ⟨"PDPv0_ReorgChk", true, run.workEnd⟩

def checkAll : List HistoryRow → List Run → Option (List (Run × Report))
  | _, [] => some []
  | history, run :: rest =>
    match run.Do network history with
    | .ok (some report) =>
      (checkAll (history ++ [run.record]) rest).map (fun later => (run, report) :: later)
    | _ => none

end Curio.Pdp.ReorgCheck
