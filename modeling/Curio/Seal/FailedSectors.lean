import Curio.Seal.Pipeline

/-! Failed sectors and new tasks: the row pollers leave out the rows that had failed when they were
read, and the batch pollers and the claims do not look at `failed`. -/

namespace Curio.Seal

open Entries StepMachine List

variable {config : Config} {rows rows' rows'' : Table} {env : Env} {state next : SealState}
  {poller : BatchPoller} {id : TaskId} {height : Int}

structure Keeps (before after : PipelineRow) : Prop where
  failed : before.failed = true → after.failed = true
  task : ∀ stage, after.task stage = before.task stage ∨ after.task stage = none

theorem Keeps.of_cleared {before after : PipelineRow} (columns : List Stage)
    (failed : before.failed = true → after.failed = true)
    (cleared : ∀ stage, after.task stage = if stage ∈ columns then none else before.task stage) :
    Keeps before after := by
  refine ⟨failed, fun stage => ?_⟩
  grind

theorem Completion.keeps (completion : Completion) (row : PipelineRow) :
    Keeps row (completion.update.set row) := by
  cases completion with
  | sdr => exact .of_cleared [.sdr] id fun _ => rfl
  | supraSeal => exact .of_cleared [.sdr, .treeR, .treeC, .treeD] id fun _ => rfl
  | treeD => exact .of_cleared [.treeD] id fun _ => rfl
  | treeRC => exact .of_cleared [.treeR, .treeC] id fun _ => rfl
  | synth => exact .of_cleared [.synth] id fun _ => rfl
  | resetSectorSealingState => exact .of_cleared [.treeR, .treeC, .synth] id fun _ => rfl
  | ticketExpired | pastStartEpoch => exact .of_cleared [.precommitMsg] (fun _ => rfl) fun _ => rfl
  | precommitSent => exact .of_cleared [.precommitMsg] id fun _ => rfl
  | porep => exact .of_cleared [.porep] id fun _ => rfl
  | finalize => exact .of_cleared [.finalize] id fun _ => rfl
  | moveStorage => exact .of_cleared [.moveStorage] id fun _ => rfl
  | allocationCheck => exact .of_cleared [.commitMsg] (fun _ => rfl) fun _ => rfl
  | commitSent => exact .of_cleared [.commitMsg] id fun _ => rfl

/-- Every row that has failed is there afterwards, has still failed, and has no new task. -/
def Spared (rows rows' : Table) : Prop :=
  ∀ key row, rows.get key = some row → row.failed = true →
    ∃ row', rows'.get key = some row' ∧ row'.failed = true ∧
      ∀ stage, row'.task stage = row.task stage ∨ row'.task stage = none

theorem Spared.refl (rows : Table) : Spared rows rows :=
  fun _ row found failed => ⟨row, found, failed, fun _ => .inl rfl⟩

theorem Spared.trans (first : Spared rows rows') (second : Spared rows' rows'') :
    Spared rows rows'' := by
  intro key row found failed
  obtain ⟨middle, there, failed', kept⟩ := first key row found failed
  obtain ⟨row', there', failed'', kept'⟩ := second key middle there failed'
  grind

theorem Update.spared_apply (update : Update) (now : Time)
    (keeps : ∀ key row, rows.get key = some row → row.failed = true →
      update.condition key row = true → Keeps row (update.set row)) :
    Spared rows (update.apply now rows) := by
  intro key row found failed
  have there : (update.apply now rows).get key = some
      (if update.condition key row then row.readyAt now (update.set row) else row) :=
    KeyMap.get_eq_some.mpr (KeyMap.mem_update.mpr ⟨row, KeyMap.get_eq_some.mp found, rfl⟩)
  cases met : update.condition key row with
  | false => grind
  | true =>
    rw [met] at there
    have kept := keeps key row found failed met
    exact ⟨_, there, kept.failed failed, kept.task⟩

theorem Update.spared_exec (update : Update)
    (keeps : ∀ key row, rows.get key = some row → row.failed = true →
      update.condition key row = true → Keeps row (update.set row)) :
    Spared rows (update.exec env rows) := by
  unfold Update.exec
  split
  · exact update.spared_apply env.now keeps
  · exact .refl rows

section Messages

variable (sector : SectorKey) (task : PipelineRow) (rows : Table)

theorem pollPrecommitMsgLanded_spared :
    Spared rows (pollPrecommitMsgLanded config env sector task rows) := by
  unfold pollPrecommitMsgLanded
  split
  · split
    · exact .refl rows
    · split
      · split
        · exact Update.spared_exec _ fun _ _ _ _ _ => .of_cleared [] id fun _ => rfl
        · exact .refl rows
      · split
        · split
          · exact Update.spared_exec _ fun _ _ _ _ _ => .of_cleared [.precommitMsg] id fun _ => rfl
          · exact .refl rows
        · exact .refl rows
  · exact .refl rows

theorem pollerAddStartEpoch_spared : Spared rows (pollerAddStartEpoch env sector task rows) := by
  unfold pollerAddStartEpoch
  split
  · split
    · exact Update.spared_exec _ fun _ _ _ _ _ => .of_cleared [] id fun _ => rfl
    · exact .refl rows
  · exact .refl rows

theorem pollCommitMsgFail_spared (result : ExecResult) :
    Spared rows (pollCommitMsgFail env sector result rows).1 := by
  unfold pollCommitMsgFail
  split
  · split
    · exact Update.spared_exec _ fun _ _ _ _ _ => .of_cleared [.commitMsg] id fun _ => rfl
    · exact .refl rows
  · split
    · exact .refl rows
    · exact .refl rows

theorem pollCommitMsgLanded_spared :
    Spared rows (pollCommitMsgLanded config env sector task rows) := by
  unfold pollCommitMsgLanded
  split
  · split
    · exact .refl rows
    · rename_i result _
      have handled : Spared rows (if result.exitCode = .ok then (rows, true)
          else pollCommitMsgFail env sector result rows).1 := by
        split
        · exact .refl rows
        · exact pollCommitMsgFail_spared sector rows result
      generalize (if result.exitCode = .ok then (rows, true)
        else pollCommitMsgFail env sector result rows) = answer at handled ⊢
      obtain ⟨left, ok⟩ := answer
      simp only
      split
      · exact handled.trans (Update.spared_exec _ fun _ _ _ _ _ => .of_cleared [] id fun _ => rfl)
      · exact handled
  · exact .refl rows

end Messages

/-- The rows that a call starts a task for, by its own checks: a row poller has looked at the row
when it was read, a batch poller looks at the table. -/
def Call.picks (config : Config) (height : Int) : Call → SectorKey × PipelineRow → Bool
  | .start poller sector task, entry =>
    config.isSet poller.poller && poller.wants height task && entry.1 = sector
  | .startBatch poller, entry => config.isSet poller.poller && poller.candidate entry.2
  | _, _ => false

theorem mem_of_mapM {α β : Type} {f : α → Option β} {items : List α} {results : List β}
    (all : items.mapM f = some results) {result : β} (member : result ∈ results) :
    ∃ item ∈ items, f item = some result := by
  induction items generalizing results with
  | nil => grind
  | cons head tail ih =>
    rw [mapM_cons] at all
    obtain ⟨first, made, rest⟩ := Option.bind_eq_some_iff.mp all
    obtain ⟨others, mapped, same⟩ := Option.bind_eq_some_iff.mp rest
    grind

theorem BatchPoller.candidate_of_assign {found : List BatchRow}
    (query : poller.rows config rows = some found) {batch : BatchCandidate}
    (made : batch ∈ groupBatchRows found) {key : SectorKey} {row : PipelineRow}
    (there : rows.get key = some row) (met : (poller.assign batch id).condition key row = true) :
    poller.candidate row = true := by
  obtain ⟨initial, read, rfl⟩ := Option.map_eq_some_iff.mp query
  simp only [BatchPoller.assign, Bool.and_eq_true, decide_eq_true_eq] at met
  obtain ⟨⟨⟨sameSp, sameProof⟩, number⟩, -⟩ := met
  have inBatch : (key.1, row.regSealProof, key.2) ∈ batch.sectors := by
    rw [sameSp, sameProof]
    exact mem_map_of_mem number
  obtain ⟨batchRow, member, same⟩ := mem_map.mp (mem_sectors_of_batch _ _ made inBatch)
  -- the query's row comes from a row of the table with the same key
  obtain ⟨entry, chosen, made⟩ := mem_of_mapM read member
  obtain ⟨startEpoch, -, rfl⟩ := Option.map_eq_some_iff.mp made
  simp only [BatchRow.sector] at same
  obtain ⟨inTable, candidate⟩ := mem_filter.mp chosen
  have found := KeyMap.get_eq_some.mpr inTable
  grind

theorem BatchPoller.fire_eq_some {now : Time} {batches : List BatchCandidate} {update : Update}
    (fired : poller.fire config height now rows id batches = some update) :
    ∃ batch ∈ batches, update = poller.assign batch id := by
  induction batches with
  | nil => cases fired
  | cons batch rest ih => grind [BatchPoller.fire]

theorem addTask_spared {update : TaskId → Option Update}
    (keeps : ∀ made, update state.nextTask = some made → ∀ key row, state.rows.get key = some row →
      row.failed = true → made.condition key row = true → Keeps row (made.set row)) :
    Spared state.rows (state.addTask env update).rows := by
  unfold SealState.addTask
  split
  · rename_i made given
    exact made.spared_exec (keeps made given)
  · exact .refl _

theorem call_spared {call : Call}
    (guarded : ∀ entry ∈ state.rows.entries, entry.2.failed = true →
      call.picks config height entry = false) :
    Spared state.rows (state.call config env height call).rows := by
  have notPicked : ∀ key row, state.rows.get key = some row → row.failed = true →
      call.picks config height (key, row) = true → False := by
    intro key row found failed picked
    have missed := guarded (key, row) (KeyMap.get_eq_some.mp found) failed
    rw [missed] at picked
    cases picked
  cases call with
  | start poller sector task =>
    simp only [SealState.call]
    split
    · rename_i starts
      apply addTask_spared
      intro made given key row found failed met
      unfold SealState.startRow at given
      split at given <;> cases given
      · refine (notPicked key row found failed ?_).elim
        have same : key = sector := of_decide_eq_true (Bool.and_eq_true_iff.mp met).1
        simp [Call.picks, starts, same]
    · exact .refl _
  | precommitMsgLanded sector task => exact pollPrecommitMsgLanded_spared sector task state.rows
  | addStartEpoch sector task => exact pollerAddStartEpoch_spared sector task state.rows
  | commitMsgLanded sector task => exact pollCommitMsgLanded_spared sector task state.rows
  | startBatch poller =>
    simp only [SealState.call]
    split
    · rename_i isSet _
      apply addTask_spared
      intro made given key row found failed met
      obtain ⟨query, read, fired⟩ := Option.bind_eq_some_iff.mp given
      obtain ⟨batch, member, rfl⟩ := BatchPoller.fire_eq_some fired
      refine (notPicked key row found failed ?_).elim
      simp [Call.picks, isSet, BatchPoller.candidate_of_assign read member found met]
    · exact .refl _

variable {actions : List SealAction}

/-- The call that a machine makes next, and the height that its round began with. -/
def SealState.nextCall (state : SealState) (machine : Machine) : Option (Int × Call) := do
  let round ← state.rounds.get machine
  let call ← round.calls.head?
  some (round.height, call)

def Guarded (config : Config) (state : SealState) : SealAction → Prop
  | .call machine _ => ∀ next ∈ state.nextCall machine, ∀ entry ∈ state.rows.entries,
      entry.2.failed = true → next.2.picks config next.1 entry = false
  | .claim claimer sectors _ => ∀ entry ∈ state.rows.entries, entry.2.failed = true →
      entry.1 ∈ sectors → claimer.wants entry.2 = false
  | _ => True

instance (config : Config) (state : SealState) : DecidablePred (Guarded config state)
  | .call _ _ => inferInstanceAs (Decidable (∀ next ∈ _, _))
  | .claim .. => inferInstanceAs (Decidable (∀ entry ∈ _, _))
  | .poll .. | .crash _ | .complete .. => inferInstanceAs (Decidable True)

theorem step_spared {action : SealAction} (guarded : Guarded config state action)
    (stepped : state.step config action = some next) : Spared state.rows next.rows := by
  cases action with
  | poll machine height =>
    simp only [SealState.step] at stepped
    split at stepped <;> cases stepped
    · exact .refl _
  | call machine env =>
    simp only [SealState.step] at stepped
    split at stepped
    · rename_i height call rest there
      have isNext : (height, call) ∈ state.nextCall machine := by
        simp [SealState.nextCall, there]
      cases stepped
      exact call_spared (guarded _ isNext)
    · cases stepped
  | crash machine =>
    cases stepped
    exact .refl _
  | complete completion now =>
    cases stepped
    exact Update.spared_apply _ now fun _ row _ _ _ => completion.keeps row
  | claim claimer sectors env =>
    cases stepped
    apply addTask_spared
    intro made given key row found failed met
    cases given
    simp only [Claimer.assign, Bool.and_eq_true, decide_eq_true_eq] at met
    have missed := guarded (key, row) (KeyMap.get_eq_some.mp found) failed met.1
    exact Bool.noConfusion (missed.symm.trans met.2)

/-- From any state on, in a run whose calls and claims pick no failed row, a failed sector stays
failed and is given no task at any stage. -/
theorem failed_rows_spared (config : Config)
    (under : RunsUnder (SealState.step config) (Guarded config) state actions)
    (ran : run (SealState.step config) state actions = some next) :
    Spared state.rows next.rows := by
  have kept : ∀ before action after, Spared state.rows before.rows →
      Guarded config before action → SealState.step config before action = some after →
      Spared state.rows after.rows :=
    fun _ _ _ spared guarded stepped => spared.trans (step_spared guarded stepped)
  exact run_invariant kept (.refl _) under ran

def soloConfig : Config where
  isSet := fun _ => true
  maxPreCommitRandomnessLookback := 3780
  preCommitChallengeDelay := 150
  preCommit := ⟨1, by decide, 0, 0⟩
  commit := ⟨1, by decide, 0, 0⟩

def anyEnv : Env := { now := 0, commits := true, head := some 6000 }

def failedAndNew : SealState where
  rows := (KeyMap.empty.put (1000, 1) { regSealProof := 8 }).put (1000, 2)
    { regSealProof := 8, failed := true }
  rounds := .empty
  nextTask := 1

theorem failed_rows_spared_new :
    ∃ next, run (SealState.step soloConfig) failedAndNew
        (.poll 0 6000 :: replicate 12 (.call 0 anyEnv)) = some next ∧
      (next.rows.get (1000, 1)).map (fun row => row.task .sdr) = some (some 1) ∧
      Spared failedAndNew.rows next.rows :=
  ⟨_, rfl, rfl, failed_rows_spared soloConfig
    (show RunsUnder _ _ failedAndNew (.poll 0 6000 :: replicate 12 (.call 0 anyEnv)) from
      by decide +kernel) rfl⟩

def readyToPrecommit : SealState where
  rows := KeyMap.empty.put (1000, 1)
    { regSealProof := 8
      ticketEpoch := some 100
      after := fun stage => stage ∈ [Stage.sdr, .treeD, .treeC, .treeR, .synth]
      task := fun stage => if stage = .precommitMsg then some 5 else none }
  rounds := .empty
  nextTask := 6

/-- The ticket has expired, so that the sector fails. The next round gives it a task again. -/
theorem expired_sector_gets_task :
    ∃ failed next, run (SealState.step soloConfig) readyToPrecommit
        [.complete (.ticketExpired 5 (1000, 1) "ticket expired: seal height: 1000, head: 6000") 0]
          = some failed ∧
      (failed.rows.get (1000, 1)).map (fun row => (row.failed, row.task .precommitMsg))
        = some (true, none) ∧
      run (SealState.step soloConfig) failed [.poll 0 6000, .call 0 anyEnv] = some next ∧
      (next.rows.get (1000, 1)).map (fun row => (row.failed, row.task .precommitMsg))
        = some (true, some 6) :=
  ⟨_, _, rfl, rfl, rfl, rfl⟩

end Curio.Seal
