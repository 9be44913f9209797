import Curio.Entries
import Curio.Seal.Batching
import Curio.StepMachine

/-! `tasks/seal`: the rows of `sectors_sdr_pipeline`, the pollers that give them tasks, and the
tasks that write their results into them, with `tasks/sealsupra`, which seals sectors in batches,
and the proofs that `tasks/proofshare` buys.

A round of `poll` works on the rows as it read them. Other machines and the tasks go on between any
two of its calls. -/

namespace Curio.Seal

open Entries

abbrev TaskId := Nat

abbrev Machine := Nat

abbrev SectorKey := Int × Int

inductive Stage where
  | sdr | treeD | treeC | treeR | synth | precommitMsg | porep | finalize | moveStorage | commitMsg
  deriving DecidableEq

structure PipelineRow where
  regSealProof : Int
  /-- `f05_deal_start_epoch` and `direct_start_epoch` of the pieces -/
  pieces : List (Option Int × Option Int) := []
  ticketEpoch : Option Int := none
  task : Stage → Option TaskId := fun _ => none
  after : Stage → Bool := fun _ => false
  precommitReadyAt : Option Time := none
  precommitMsgCid : Option String := none
  precommitMsgSuccess : Bool := false
  seedEpoch : Option Int := none
  startEpoch : Option Int := none
  porepProof : Option (List UInt8) := none
  commitReadyAt : Option Time := none
  commitMsgCid : Option String := none
  commitMsgSuccess : Bool := false
  failed : Bool := false
  failedReason : String := ""
  failedReasonMsg : String := ""

namespace PipelineRow

def setTask (row : PipelineRow) (columns : List Stage) (id : Option TaskId) : PipelineRow :=
  { row with task := fun stage => if stage ∈ columns then id else row.task stage }

def setAfter (row : PipelineRow) (columns : List Stage) (value : Bool) : PipelineRow :=
  { row with after := fun stage => if stage ∈ columns then value else row.after stage }

def afterSDR (t : PipelineRow) : Bool := t.after .sdr

def afterTreeD (t : PipelineRow) : Bool := t.after .treeD && t.afterSDR

def afterTreeRC (t : PipelineRow) : Bool := t.after .treeC && t.after .treeR && t.afterTreeD

def afterSynth (t : PipelineRow) : Bool := t.after .synth && t.afterTreeRC

def afterPrecommitMsg (t : PipelineRow) : Bool := t.after .precommitMsg && t.afterSynth

def afterPrecommitMsgSuccess (t : PipelineRow) : Bool := t.precommitMsgSuccess && t.afterPrecommitMsg

def afterPoRep (t : PipelineRow) : Bool := t.after .porep && t.afterPrecommitMsgSuccess

def afterFinalize (t : PipelineRow) : Bool := t.after .finalize && t.afterPoRep

/-- The triggers `update_precommit_ready_at` and `update_commit_ready_at`. -/
def readyAt (now : Time) (old new : PipelineRow) : PipelineRow :=
  { new with
    precommitReadyAt :=
      if !old.after .treeR && new.after .treeR then some now else new.precommitReadyAt
    commitReadyAt := if !old.after .porep && new.after .porep then some now else new.commitReadyAt }

end PipelineRow

abbrev Table := KeyMap SectorKey PipelineRow

structure Update where
  set : PipelineRow → PipelineRow
  condition : SectorKey → PipelineRow → Bool

def Update.apply (update : Update) (now : Time) (rows : Table) : Table :=
  rows.update fun key row =>
    if update.condition key row then row.readyAt now (update.set row) else row

def Update.count (update : Update) (rows : Table) : Nat :=
  rows.entries.countP fun entry => update.condition entry.1 entry.2

inductive Completion where
  | sdr (sector : SectorKey) (ticketEpoch : Int)
  | supraSeal (sector : SectorKey) (ticketEpoch : Int)
  | treeD (sector : SectorKey)
  | treeRC (sector : SectorKey)
  | synth (sector : SectorKey)
  | resetSectorSealingState (sector : SectorKey)
  | ticketExpired (taskID : TaskId) (sector : SectorKey) (message : String)
  | pastStartEpoch (taskID : TaskId)
  | precommitSent (taskID : TaskId) (mcid : String)
  | porep (sector : SectorKey) (proof : List UInt8)
  | finalize (taskID : TaskId)
  | moveStorage (taskID : TaskId)
  | allocationCheck (sector : SectorKey) (message : String)
  | commitSent (taskID : TaskId) (spID : Int) (sectors : List Int) (mcid : String)

def Completion.update : Completion → Update
  | .sdr sector ticketEpoch =>
    { set := fun row =>
        { row.setAfter [.sdr] true |>.setTask [.sdr] none with ticketEpoch := some ticketEpoch }
      condition := fun key _ => key = sector }
  | .supraSeal sector ticketEpoch =>
    { set := fun row =>
        { row.setAfter [.sdr, .treeC, .treeR, .treeD, .synth] true
            |>.setTask [.sdr, .treeR, .treeC, .treeD] none with
          ticketEpoch := some ticketEpoch }
      condition := fun key _ => key = sector }
  | .treeD sector =>
    { set := fun row => row.setAfter [.treeD] true |>.setTask [.treeD] none
      condition := fun key _ => key = sector }
  | .treeRC sector =>
    { set := fun row => row.setAfter [.treeR, .treeC] true |>.setTask [.treeR, .treeC] none
      condition := fun key _ => key = sector }
  | .synth sector =>
    { set := fun row => row.setAfter [.synth] true |>.setTask [.synth] none
      condition := fun key _ => key = sector }
  | .resetSectorSealingState sector =>
    -- `task_id_tree_d` stays
    { set := fun row =>
        row.setAfter [.treeD, .treeR, .treeC, .synth] false |>.setTask [.treeR, .treeC, .synth] none
      condition := fun key _ => key = sector }
  | .ticketExpired taskID sector message =>
    { set := fun row =>
        { row.setTask [.precommitMsg] none with
          failed := true, failedReason := "precommit-check", failedReasonMsg := message }
      condition := fun key row => row.task .precommitMsg = some taskID && key = sector }
  | .pastStartEpoch taskID =>
    { set := fun row =>
        { row.setTask [.precommitMsg] none with
          failed := true
          failedReason := "past-start-epoch"
          failedReasonMsg := "precommit: start epoch is in the past" }
      condition := fun _ row => row.task .precommitMsg = some taskID }
  | .precommitSent taskID mcid =>
    { set := fun row =>
        { row.setAfter [.precommitMsg] true |>.setTask [.precommitMsg] none with
          precommitMsgCid := some mcid }
      condition := fun _ row => row.task .precommitMsg = some taskID }
  | .porep sector proof =>
    -- `finalizeSectorPoRep` writes the same for a proof that was bought
    { set := fun row =>
        { row.setAfter [.porep] true |>.setTask [.porep] none with porepProof := some proof }
      condition := fun key _ => key = sector }
  | .finalize taskID =>
    { set := fun row => row.setAfter [.finalize] true |>.setTask [.finalize] none
      condition := fun _ row => row.task .finalize = some taskID }
  | .moveStorage taskID =>
    { set := fun row => row.setAfter [.moveStorage] true |>.setTask [.moveStorage] none
      condition := fun _ row => row.task .moveStorage = some taskID }
  | .allocationCheck _ message =>
    { set := fun row =>
        { row.setTask [.commitMsg] none |>.setAfter [.commitMsg] false with
          failed := true, failedReason := "alloc-check", failedReasonMsg := message }
      -- the task's id is not among the arguments, so that the database refuses the statement
      condition := fun _ _ => false }
  | .commitSent taskID spID sectors mcid =>
    { set := fun row =>
        { row.setAfter [.commitMsg] true |>.setTask [.commitMsg] none with
          commitMsgCid := some mcid }
      condition := fun key row =>
        row.task .commitMsg = some taskID && key.1 = spID && key.2 ∈ sectors }

inductive Poller where
  | sdr | treeD | treeRC | syntheticProofs | precommitMsg | poRep | commitMsg | finalize | moveStorage
  deriving DecidableEq

structure BatchingConfig where
  maxBatch : Nat
  maxBatch_pos : 0 < maxBatch
  slackEpochs : Int
  timeout : Int

/-- The pollers of a machine that have a task to add, and the chain's and the user's numbers. -/
structure Config where
  isSet : Poller → Bool
  maxPreCommitRandomnessLookback : Int
  preCommitChallengeDelay : Int
  preCommit : BatchingConfig
  commit : BatchingConfig

def seedEpochConfidence : Int := 3

/-- A poller that starts a task for a row: its check of the row it read, its `UPDATE`. -/
structure RowPoller where
  poller : Poller
  wants : (height : Int) → PipelineRow → Bool
  columns : List Stage
  condition : PipelineRow → Bool

def RowPoller.assign (poller : RowPoller) (sector : SectorKey) (id : TaskId) : Update where
  set := fun row => row.setTask poller.columns (some id)
  condition := fun key row => key = sector && poller.condition row

def pollStartSDR : RowPoller where
  poller := .sdr
  wants := fun _ task => !task.after .sdr && (task.task .sdr).isNone
  columns := [.sdr]
  condition := fun row => (row.task .sdr).isNone

def pollStartSDRTreeD : RowPoller where
  poller := .treeD
  wants := fun _ task => !task.after .treeD && (task.task .treeD).isNone && task.afterSDR
  columns := [.treeD]
  condition := fun row => row.after .sdr && (row.task .treeD).isNone

def pollStartSDRTreeRC : RowPoller where
  poller := .treeRC
  wants := fun _ task =>
    !task.after .treeC && !task.after .treeR && (task.task .treeC).isNone &&
      (task.task .treeR).isNone && task.afterTreeD
  columns := [.treeC, .treeR]
  condition := fun row =>
    row.after .treeD && (row.task .treeC).isNone && (row.task .treeR).isNone

def pollStartSynth : RowPoller where
  poller := .syntheticProofs
  wants := fun _ task =>
    !task.after .synth && (task.task .synth).isNone && task.after .treeR && task.afterTreeRC
  columns := [.synth]
  condition := fun row => (row.task .synth).isNone

def pollStartPoRep : RowPoller where
  poller := .poRep
  wants := fun height task =>
    task.afterPrecommitMsgSuccess &&
      (match task.seedEpoch with
        | some seedEpoch => height ≥ seedEpoch + seedEpochConfidence
        | none => false) &&
      (task.task .porep).isNone && !task.after .porep
  columns := [.porep]
  condition := fun row => (row.task .porep).isNone

def pollStartFinalize : RowPoller where
  poller := .finalize
  wants := fun _ task => task.afterPoRep && !task.after .finalize && (task.task .finalize).isNone
  columns := [.finalize]
  condition := fun row => (row.task .finalize).isNone

def pollStartMoveStorage : RowPoller where
  poller := .moveStorage
  wants := fun _ task =>
    task.afterFinalize && !task.after .moveStorage && (task.task .moveStorage).isNone
  columns := [.moveStorage]
  condition := fun row => (row.task .moveStorage).isNone

/-- The schedulers `SupraSeal.schedule` and `TaskClientUpload.adderPorep`, which take over rows and
the tasks that nobody has begun for them. -/
inductive Claimer where
  | supraSeal | adderPorep

def Claimer.wants : Claimer → PipelineRow → Bool
  | .supraSeal, row => !row.after .sdr
  | .adderPorep, row => !row.after .porep && (row.task .porep).isSome

def Claimer.columns : Claimer → List Stage
  | .supraSeal => [.sdr, .treeR, .treeC, .treeD]
  | .adderPorep => [.porep]

/-- `sectors` are those for which `harmony_task` has no task, or one without an owner. -/
def Claimer.assign (claimer : Claimer) (sectors : List SectorKey) (id : TaskId) : Update where
  set := fun row => row.setTask claimer.columns (some id)
  condition := fun key row => key ∈ sectors && claimer.wants row

/-- A poller that looks for its rows itself: the candidate query, its order, its `UPDATE`. -/
structure BatchPoller where
  poller : Poller
  batching : Config → BatchingConfig
  candidate : PipelineRow → Bool
  startEpoch : Config → PipelineRow → Option Int
  readyAt : PipelineRow → Option Time
  order : BatchRow → Int
  column : Stage
  condition : PipelineRow → Bool

/-- `MIN(LEAST(s.f05_deal_start_epoch, s.direct_start_epoch))`, where nulls are left out -/
def dealStart (pieces : List (Option Int × Option Int)) : Option Int :=
  (pieces.flatMap fun piece => piece.1.toList ++ piece.2.toList).min?

def pollStartBatchPrecommitMsg : BatchPoller where
  poller := .precommitMsg
  batching := Config.preCommit
  candidate := fun p =>
    p.after .synth && (p.task .precommitMsg).isNone && !p.after .precommitMsg
  startEpoch := fun config p =>
    (dealStart p.pieces).or (p.ticketEpoch.map (· + config.maxPreCommitRandomnessLookback))
  readyAt := PipelineRow.precommitReadyAt
  order := BatchRow.startEpoch
  column := .precommitMsg
  condition := fun row =>
    row.after .synth && (row.task .precommitMsg).isNone && !row.after .precommitMsg

def pollStartBatchCommitMsg : BatchPoller where
  poller := .commitMsg
  batching := Config.commit
  candidate := fun p =>
    p.after .porep && p.porepProof.isSome && (p.task .commitMsg).isNone && !p.after .commitMsg &&
      p.startEpoch.isSome
  startEpoch := fun _ p => p.startEpoch
  readyAt := PipelineRow.commitReadyAt
  order := BatchRow.readyAt
  column := .commitMsg
  condition := fun row =>
    row.after .porep && (row.task .commitMsg).isNone && !row.after .commitMsg

/-- A row of the candidate query; a null start epoch cannot be read. -/
def BatchPoller.batchRow (poller : BatchPoller) (config : Config) (entry : SectorKey × PipelineRow) :
    Option BatchRow :=
  (poller.startEpoch config entry.2).map fun startEpoch =>
    { spID := entry.1.1
      sectorNumber := entry.1.2
      startEpoch
      readyAt := (poller.readyAt entry.2).getD 0
      regSealProof := entry.2.regSealProof }

def BatchPoller.rows (poller : BatchPoller) (config : Config) (table : Table) :
    Option (List BatchRow) :=
  ((table.entries.filter fun entry => poller.candidate entry.2).mapM (poller.batchRow config)).map
    (numbered poller.order (poller.batching config).maxBatch)

def BatchPoller.assign (poller : BatchPoller) (batch : BatchCandidate) (id : TaskId) : Update where
  set := fun row => row.setTask [poller.column] (some id)
  condition := fun key row =>
    key.1 = batch.spID && row.regSealProof = batch.regSealProof && key.2 ∈ batch.sectorNums &&
      poller.condition row

/-- The loop over the batches: the first one that should be sent and has rows. -/
def BatchPoller.fire (poller : BatchPoller) (config : Config) (height : Int) (now : Time)
    (table : Table) (id : TaskId) : List BatchCandidate → Option Update
  | [] => none
  | batch :: rest =>
    let batching := poller.batching config
    let result := evalBatchTimeout batch.earliestReady batching.timeout batch.minStartEpoch
      batching.slackEpochs height now batch.sectorNums.length batching.maxBatch
    if result.shouldFire && (poller.assign batch id).count table > 0 then
      some (poller.assign batch id)
    else fire poller config height now table id rest

inductive ExitCode where
  | ok
  | sysErrInsufficientFunds
  | errInsufficientFunds
  | sysErrOutOfGas
  | errNotFound
  | other (code : Int)
  deriving DecidableEq

structure ExecResult where
  precommitMsgCID : Option String
  commitMsgCID : Option String
  exitCode : ExitCode

/-- What a call of a poller gets from the clock, the database and the chain; `none` is an error. -/
structure Env where
  now : Time
  /-- Whether the database commits what it is asked to write. -/
  commits : Bool
  head : Option Int
  execResult : Option ExecResult := none
  /-- `PreCommitEpoch` of the sector, if it is on chain -/
  preCommitInfo : Option (Option Int) := none
  maxProveCommitDuration : Option Int := none
  /-- Whether the sector is on chain: the answers to `pollCommitMsgFail` and after it. -/
  sectorFound : Option Bool := none
  sectorFoundAfter : Option Bool := none

def Update.exec (update : Update) (env : Env) (rows : Table) : Table :=
  if env.commits then update.apply env.now rows else rows

/-- `just retry` -/
def ExitCode.retries : ExitCode → Bool
  | .sysErrInsufficientFunds | .errInsufficientFunds | .sysErrOutOfGas => true
  | _ => false

def retryPrecommitMsgSend (sector : SectorKey) (cid : String) : Update where
  set := fun row =>
    { row.setTask [.precommitMsg] none |>.setAfter [.precommitMsg] false with
      precommitMsgCid := none }
  condition := fun key row =>
    row.precommitMsgCid = some cid && key = sector && !row.precommitMsgSuccess

def precommitMsgLanded (sector : SectorKey) (seedEpoch : Int) : Update where
  set := fun row => { row with seedEpoch := some seedEpoch, precommitMsgSuccess := true }
  condition := fun key row => key = sector && row.seedEpoch.isNone

def pollPrecommitMsgLanded (config : Config) (env : Env) (sector : SectorKey) (task : PipelineRow)
    (rows : Table) : Table :=
  if task.after .precommitMsg && !task.precommitMsgSuccess then
    match env.execResult with
    | none => rows
    | some result =>
      if result.exitCode = .ok then
        match env.preCommitInfo with
        | some (some preCommitEpoch) =>
          (precommitMsgLanded sector (preCommitEpoch + config.preCommitChallengeDelay)).exec env
            rows
        | _ => rows
      else if result.exitCode.retries then
        match result.precommitMsgCID with
        | some cid => (retryPrecommitMsgSend sector cid).exec env rows
        | none => rows
      else rows
  else rows

def addStartEpoch (sector : SectorKey) (startEpoch : Int) : Update where
  set := fun row => { row with startEpoch := some startEpoch }
  condition := fun key row =>
    key = sector && row.precommitMsgSuccess && !row.after .commitMsg && row.startEpoch.isNone

def pollerAddStartEpoch (env : Env) (sector : SectorKey) (task : PipelineRow) (rows : Table) :
    Table :=
  if task.precommitMsgSuccess && task.startEpoch.isNone then
    match env.preCommitInfo, env.maxProveCommitDuration with
    | some (some preCommitEpoch), some duration =>
      (addStartEpoch sector (preCommitEpoch + duration)).exec env rows
    | _, _ => rows
  else rows

def retryCommitMsgSend (sector : SectorKey) (cid : String) : Update where
  set := fun row =>
    { row.setTask [.commitMsg] none |>.setAfter [.commitMsg] false with commitMsgCid := none }
  condition := fun key row =>
    row.commitMsgCid = some cid && key = sector && !row.commitMsgSuccess

/-- The rows afterwards, and whether there was no error. -/
def pollCommitMsgFail (env : Env) (sector : SectorKey) (result : ExecResult) (rows : Table) :
    Table × Bool :=
  if result.exitCode.retries then
    match result.commitMsgCID with
    | some cid => ((retryCommitMsgSend sector cid).exec env rows, env.commits)
    | none => (rows, false)
  else if result.exitCode = .errNotFound then (rows, env.sectorFound = some true)
  else (rows, false)

def commitMsgLanded (sector : SectorKey) : Update where
  set := fun row => { row with commitMsgSuccess := true }
  condition := fun key row => key = sector && !row.commitMsgSuccess

/-- `pollCommitMsgFail` writes outside of the transaction, so that its changes stay. -/
def pollCommitMsgLanded (config : Config) (env : Env) (sector : SectorKey) (task : PipelineRow)
    (rows : Table) : Table :=
  if task.after .commitMsg && !task.commitMsgSuccess && config.isSet .commitMsg then
    match env.execResult with
    | none => rows
    | some result =>
      let (rows, handled) :=
        if result.exitCode = .ok then (rows, true) else pollCommitMsgFail env sector result rows
      if handled && env.sectorFoundAfter = some true then (commitMsgLanded sector).exec env rows
      else rows
  else rows

inductive Call where
  | start (poller : RowPoller) (sector : SectorKey) (task : PipelineRow)
  | precommitMsgLanded (sector : SectorKey) (task : PipelineRow)
  | addStartEpoch (sector : SectorKey) (task : PipelineRow)
  | commitMsgLanded (sector : SectorKey) (task : PipelineRow)
  | startBatch (poller : BatchPoller)

def callsFor (entry : SectorKey × PipelineRow) : List Call :=
  [.start pollStartSDR entry.1 entry.2,
    .start pollStartSDRTreeD entry.1 entry.2,
    .start pollStartSDRTreeRC entry.1 entry.2,
    .start pollStartSynth entry.1 entry.2,
    .precommitMsgLanded entry.1 entry.2,
    .start pollStartPoRep entry.1 entry.2,
    .addStartEpoch entry.1 entry.2,
    .start pollStartFinalize entry.1 entry.2,
    .start pollStartMoveStorage entry.1 entry.2,
    .commitMsgLanded entry.1 entry.2]

/-- `poll`: read the rows that are not through, leave out the failed ones, make the calls. -/
def poll (rows : Table) : List Call :=
  let tasks := rows.entries.filter fun entry =>
    !entry.2.commitMsgSuccess || !entry.2.after .moveStorage
  let tasks := tasks.filter fun entry => !entry.2.failed
  tasks.flatMap callsFor ++
    [.startBatch pollStartBatchPrecommitMsg, .startBatch pollStartBatchCommitMsg]

structure Round where
  height : Int
  calls : List Call

/-- The table, the rounds of the machines, and the sequence of the task ids. -/
structure SealState where
  rows : Table
  rounds : KeyMap Machine Round
  nextTask : TaskId

inductive SealAction where
  | poll (machine : Machine) (height : Int)
  | call (machine : Machine) (env : Env)
  | crash (machine : Machine)
  | complete (completion : Completion) (now : Time)
  | claim (claimer : Claimer) (sectors : List SectorKey) (env : Env)

namespace SealState

/-- `AddTask`: the task is added together with its update, or not at all. -/
def addTask (state : SealState) (env : Env) (update : TaskId → Option Update) : SealState :=
  { state with
    rows := match update state.nextTask with
      | some update => update.exec env state.rows
      | none => state.rows
    nextTask := state.nextTask + 1 }

def startRow (rows : Table) (poller : RowPoller) (sector : SectorKey) (id : TaskId) :
    Option Update :=
  if (poller.assign sector id).count rows = 1 then some (poller.assign sector id) else none

def startBatch (config : Config) (height : Int) (now : Time) (rows : Table) (poller : BatchPoller)
    (id : TaskId) : Option Update := do
  let found ← poller.rows config rows
  poller.fire config height now rows id (groupBatchRows found)

def call (config : Config) (state : SealState) (env : Env) (height : Int) : Call → SealState
  | .start poller sector task =>
    if config.isSet poller.poller && poller.wants height task then
      state.addTask env (startRow state.rows poller sector)
    else state
  | .precommitMsgLanded sector task =>
    { state with rows := pollPrecommitMsgLanded config env sector task state.rows }
  | .addStartEpoch sector task =>
    { state with rows := pollerAddStartEpoch env sector task state.rows }
  | .commitMsgLanded sector task =>
    { state with rows := pollCommitMsgLanded config env sector task state.rows }
  | .startBatch poller =>
    match config.isSet poller.poller, env.head with
    | true, some height => state.addTask env (startBatch config height env.now state.rows poller)
    | _, _ => state

def step (config : Config) (state : SealState) : SealAction → Option SealState
  | .poll machine height =>
    -- one round after the other
    if (state.rounds.get machine).all fun round => round.calls.isEmpty then
      some { state with rounds := state.rounds.put machine ⟨height, Seal.poll state.rows⟩ }
    else none
  | .call machine env =>
    match state.rounds.get machine with
    | some ⟨height, call :: rest⟩ =>
      some { state.call config env height call with
        rounds := state.rounds.put machine ⟨height, rest⟩ }
    | _ => none
  | .crash machine => some { state with rounds := state.rounds.remove machine }
  | .complete completion now =>
    some { state with rows := completion.update.apply now state.rows }
  | .claim claimer sectors env =>
    some (state.addTask env fun id => some (claimer.assign sectors id))

end SealState

end Curio.Seal
