import Curio.Pdp.DeletionPipeline

/-! What the steps of the deletion pipeline can make of a row, and what holds of every row.

Every step is described by what it makes of the row of one data set (`Change`): the invariant of the
rows and all that is said about a whole run are proved from that. -/

namespace Curio.Pdp.Deletion

open GoRuntime StepMachine List
open ReorgCheck (Hash SendReason WaitStatus pdpv0SendReasons)

variable {other id : DataSetId} {outcome : Outcome}
  {successful failed : Contracts → Row → Option Outcome} {next st : State} {success : Bool}
  {row : Row} {effect : Contracts → Row → Option Outcome} {awaits : Row → Option Hash}
  {order : List DataSetId}

section Applied

variable (st : State) (id : DataSetId) (outcome : Outcome)

@[simp] theorem apply_rows_same : (st.apply id outcome).rows id = outcome.row := by
  simp [State.apply]

@[simp] theorem apply_rows_other (apart : other ≠ id) :
    (st.apply id outcome).rows other = st.rows other := by
  simp [State.apply, apart]

theorem apply_dataSets_same (present : st.dataSets id = true)
    (dropped : (st.apply id outcome).dataSets id = false) : outcome.dropsDataSet = true := by
  by_contra kept
  simp [State.apply, kept, present] at dropped

@[simp] theorem apply_dataSets_other (apart : other ≠ id) :
    (st.apply id outcome).dataSets other = st.dataSets other := by
  unfold State.apply
  cases outcome.dropsDataSet <;> simp [apart]

end Applied

section Passes

variable {effect : Contracts → Row → Option Outcome}

variable {st : State} {rest : List DataSetId} {head : DataSetId} {row : Row} {ids : List DataSetId}

theorem passRows_absent (absent : st.rows head = none) :
    passRows effect (head :: rest) st = passRows effect rest st := by
  rw [passRows, absent]

theorem passRows_error (known : st.rows head = some row)
    (failed : effect (st.contracts head) row = none) :
    passRows effect (head :: rest) st = (st, false) := by
  rw [passRows, known]
  simp only [failed]

theorem passRows_applied (known : st.rows head = some row)
    (made : effect (st.contracts head) row = some outcome) :
    passRows effect (head :: rest) st = passRows effect rest (st.apply head outcome) := by
  rw [passRows, known]
  simp only [made]

theorem passRows_keeps {P : State → Prop}
    (kept : ∀ st id row outcome, id ∈ ids → P st → effect (st.contracts id) row = some outcome →
      P (st.apply id outcome)) (initial : P st) :
    P (passRows effect ids st).1 := by
  induction ids generalizing st with
  | nil => exact initial
  | cons head rest ih =>
    have later := fun st id row outcome (member : id ∈ rest) =>
      kept st id row outcome (mem_cons_of_mem head member)
    cases known : st.rows head with
    | none =>
      rw [passRows_absent known]
      exact ih later initial
    | some row =>
      cases made : effect (st.contracts head) row with
      | none =>
        rw [passRows_error known made]
        exact initial
      | some outcome =>
        rw [passRows_applied known made]
        exact ih later (kept st head row outcome mem_cons_self initial made)

theorem passRows_other (effect : Contracts → Row → Option Outcome) (apart : id ∉ ids) (st : State) :
    (passRows effect ids st).1.rows id = st.rows id ∧
      (passRows effect ids st).1.dataSets id = st.dataSets id := by
  refine passRows_keeps (P := fun next =>
    next.rows id = st.rows id ∧ next.dataSets id = st.dataSets id) ?_ ⟨rfl, rfl⟩
  intro next head row outcome member same _
  have different : id ≠ head := fun equal => apart (equal ▸ member)
  rwa [apply_rows_other next head outcome different,
    apply_dataSets_other next head outcome different]

def Quiet (effect : Contracts → Row → Option Outcome) : Prop :=
  ∀ contracts row outcome, effect contracts row = some outcome → outcome.sent = none

structure Frame (st next : State) : Prop where
  contracts : next.contracts = st.contracts
  ids : next.ids = st.ids
  sends : next.sends = st.sends
  waits : next.waits = st.waits

theorem passRows_frame (quiet : Quiet effect) (ids : List DataSetId) (st : State) :
    Frame st (passRows effect ids st).1 := by
  refine passRows_keeps (P := Frame st) ?_ ⟨rfl, rfl, rfl, rfl⟩
  intro next head row outcome _ same made
  have silent := quiet _ _ _ made
  refine { same with sends := ?_, waits := ?_ }
  · simpa [State.apply, silent] using same.sends
  · simpa [State.apply, silent] using same.waits

theorem passRows_row (effect : Contracts → Row → Option Outcome) (once : ids.Nodup) (st : State)
    (id : DataSetId) :
    ((passRows effect ids st).1.rows id = st.rows id ∧
      (passRows effect ids st).1.dataSets id = st.dataSets id) ∨
    id ∈ ids ∧ ∃ row outcome, st.rows id = some row ∧
      effect (st.contracts id) row = some outcome ∧
      (passRows effect ids st).1.rows id = outcome.row ∧
      (st.dataSets id = true → (passRows effect ids st).1.dataSets id = false →
        outcome.dropsDataSet = true) := by
  induction ids generalizing st with
  | nil => exact .inl ⟨rfl, rfl⟩
  | cons head rest ih =>
    obtain ⟨alone, rest_once⟩ := nodup_cons.mp once
    cases known : st.rows head with
    | none =>
      rw [passRows_absent known]
      grind
    | some row =>
      cases made : effect (st.contracts head) row with
      | none =>
        rw [passRows_error known made]
        exact .inl ⟨rfl, rfl⟩
      | some outcome =>
        rw [passRows_applied known made]
        by_cases same : id = head
        · subst same
          obtain ⟨rows, dataSets⟩ := passRows_other effect alone (st.apply id outcome)
          rw [apply_rows_same] at rows
          rw [dataSets]
          exact .inr ⟨mem_cons_self, row, outcome, known, made, rows,
            apply_dataSets_same st id outcome⟩
        · have changed := ih rest_once (st.apply head outcome)
          rw [apply_rows_other st head outcome same,
            apply_dataSets_other st head outcome same] at changed
          rcases changed with kept | ⟨later, changed⟩
          · exact .inl kept
          · exact .inr ⟨mem_cons_of_mem _ later, changed⟩

theorem passRows_ok (once : ids.Nodup) (st : State) :
    (passRows effect ids st).2 = true ↔ ∀ id ∈ ids, ∀ row, st.rows id = some row →
      (effect (st.contracts id) row).isSome := by
  induction ids generalizing st with
  | nil => simp [passRows]
  | cons head rest ih =>
    obtain ⟨alone, rest_once⟩ := nodup_cons.mp once
    rw [forall_mem_cons]
    cases known : st.rows head with
    | none =>
      rw [passRows_absent known, ih rest_once st]
      simp
    | some row =>
      cases made : effect (st.contracts head) row with
      | none =>
        rw [passRows_error known made]
        simp [made]
      | some outcome =>
        rw [passRows_applied known made, ih rest_once (st.apply head outcome)]
        have rowsKept (id : DataSetId) (member : id ∈ rest) :
            (st.apply head outcome).rows id = st.rows id :=
          apply_rows_other st head outcome (fun same => alone (same ▸ member))
        simp only [Option.some.injEq, forall_eq', made, Option.isSome_some, true_and]
        exact forall₂_congr (fun id member => by rw [rowsKept id member]; rfl)

end Passes

section Rules

attribute [grind] rowOutcome TerminateTask.schedule TerminateTask.Do DeleteTask.schedule
  DeleteTask.Do CleanupTask.schedule CleanupTask.Do successfulTermination failedTermination
  syncMissingTermination reconcileTermination markServiceTerminationConfirmed
  resetFailedProviderTermination successfulDelete failedDelete syncMissingDelete
  markDataSetDeleteConfirmed resetDelete successfulCleanup failedCleanup syncMissingCleanup
  reconcileCleanup clearCleanupTxHash resetCleanup cleanupFinalizedDataSet syncRail syncVerifier
  settleRail ensureDataSetDeletion Row.readyForDelete Row.readyForCleanup

end Rules

section Changes

/-- What the components can make of a row, in the state that they find. -/
inductive Acts (st : State) (id : DataSetId) (row : Row) (outcome : Outcome) : Prop
  | action (action : RowAction) (made : rowOutcome st (st.contracts id) row action = some outcome)
  | successfulTermination (ended : st.ended Row.awaitsTermination true id = true)
      (made : successfulTermination (st.contracts id) row = some outcome)
  /-- The watcher comes to the failures after all the successes. -/
  | failedTermination (ended : st.ended Row.awaitsTermination false id = true)
      (reached : ∀ other ∈ st.ids, st.ended Row.awaitsTermination true other = true →
        ∀ found, st.rows other = some found →
          (Deletion.successfulTermination (st.contracts other) found).isSome)
      (made : failedTermination (st.contracts id) row = some outcome)
  | successfulDelete (ended : st.ended Row.awaitsDelete true id = true)
      (made : successfulDelete (st.contracts id) row = some outcome)
  | failedDelete (ended : st.ended Row.awaitsDelete false id = true)
      (made : failedDelete (st.contracts id) row = some outcome)
  | successfulCleanup (ended : st.ended Row.awaitsCleanup true id = true)
      (made : successfulCleanup (st.contracts id) row = some outcome)
  | failedCleanup (ended : st.ended Row.awaitsCleanup false id = true)
      (made : failedCleanup (st.contracts id) row = some outcome)

/-- What a step can make of the row and of the data set with the given id. -/
inductive Change (st next : State) (id : DataSetId) : Prop
  | kept (rows : next.rows id = st.rows id)
      (dataSets : st.dataSets id = true → next.dataSets id = true)
  | acted {row : Row} {outcome : Outcome} (known : st.rows id = some row)
      (acts : Acts st id row outcome) (rows : next.rows id = outcome.row)
      (sends : ∀ sent, outcome.sent = some sent → sent ∈ next.sends)
      (dataSets : st.dataSets id = true → next.dataSets id = false → outcome.dropsDataSet = true)
  | taskEnded {row : Row} (task : TaskId) (known : st.rows id = some row)
      (rows : next.rows id = row.endTask task) (dataSets : next.dataSets id = st.dataSets id)
  | requested (client : Bool) (absent : st.rows id = none)
      (rows : next.rows id = some { clientRequestedTermination := client })
      (listed : id ∈ next.ids) (dataSets : next.dataSets id = st.dataSets id)

variable {awaits : Row → Option Hash} {st : State} {id : DataSetId} {contracts : Contracts}
  {outcome : Outcome} {row : Row} {order : List DataSetId}

theorem ended_exclusive (failed : st.ended awaits false id = true) :
    st.ended awaits true id = false := by
  simp only [State.ended, beq_iff_eq] at failed
  simp [State.ended, failed]

theorem quiet_reconcileTermination : Quiet reconcileTermination := fun _ _ _ made => by grind

theorem quiet_successfulTermination : Quiet successfulTermination := fun _ _ _ made => by grind

theorem quiet_successfulDelete : Quiet successfulDelete := fun _ _ _ made => by grind

theorem quiet_failedDelete : Quiet failedDelete := fun _ _ _ made => by grind

theorem quiet_reconcileCleanup : Quiet reconcileCleanup := fun _ _ _ made => by grind

theorem quiet_failedCleanup : Quiet failedCleanup := fun _ _ _ made => by grind

def Passed (st next : State) (awaits : Row → Option Hash) (success : Bool)
    (effect : Contracts → Row → Option Outcome) (id : DataSetId) : Prop :=
  ∃ row outcome, st.rows id = some row ∧ st.ended awaits success id = true ∧
    effect (st.contracts id) row = some outcome ∧ next.rows id = outcome.row ∧
    (st.dataSets id = true → next.dataSets id = false → outcome.dropsDataSet = true)

theorem passRows_passed (once : order.Nodup) :
    ((passRows effect (order.filter (st.ended awaits success)) st).1.rows id = st.rows id ∧
      (passRows effect (order.filter (st.ended awaits success)) st).1.dataSets id =
        st.dataSets id) ∨
    Passed st (passRows effect (order.filter (st.ended awaits success)) st).1 awaits success
      effect id := by
  rcases passRows_row effect (once.filter (st.ended awaits success)) st id with
    kept | ⟨member, changed⟩
  · exact .inl kept
  · obtain ⟨row, outcome, known, made, rows, dataSets⟩ := changed
    exact .inr ⟨row, outcome, known, (mem_filter.mp member).2, made, rows, dataSets⟩

theorem processBoth_passed (quiet : Quiet successful) (once : order.Nodup) :
    ((processBoth successful failed awaits order st).rows id = st.rows id ∧
      (processBoth successful failed awaits order st).dataSets id = st.dataSets id) ∨
    Passed st (processBoth successful failed awaits order st) awaits true successful id ∨
    Passed st (processBoth successful failed awaits order st) awaits false failed id := by
  unfold processBoth
  by_cases second : id ∈ order.filter (st.ended awaits false)
  · -- the first pass is over other rows
    have apart : id ∉ order.filter (st.ended awaits true) := by
      have exclusive := ended_exclusive (mem_filter.mp second).2
      simp [exclusive]
    have untouched := passRows_other successful apart st
    have reads := (passRows_frame quiet (order.filter (st.ended awaits true)) st).contracts
    have changed := passRows_row failed (once.filter (st.ended awaits false))
      (passRows successful (order.filter (st.ended awaits true)) st).1 id
    rw [untouched.1, untouched.2, reads] at changed
    rcases changed with kept | ⟨member, row, outcome, known, made, rows, dataSets⟩
    · exact .inl kept
    · exact .inr (.inr ⟨row, outcome, known, (mem_filter.mp member).2, made, rows, dataSets⟩)
  · -- the second pass is over other rows
    have untouched := passRows_other failed second
      (passRows successful (order.filter (st.ended awaits true)) st).1
    simp only [Passed, untouched.1, untouched.2]
    rcases passRows_passed once with kept | passed
    · exact .inl kept
    · exact .inr (.inl passed)

theorem processTerminations_eq (order : List DataSetId) (st : State) :
    processTerminations order st =
      if (passRows successfulTermination
          (order.filter (st.ended Row.awaitsTermination true)) st).2 then
        processBoth successfulTermination failedTermination Row.awaitsTermination order st
      else (passRows successfulTermination
          (order.filter (st.ended Row.awaitsTermination true)) st).1 := by
  grind [processTerminations, processBoth]

theorem Change.of_same (same : next.rows id = st.rows id ∧ next.dataSets id = st.dataSets id) :
    Change st next id :=
  .kept same.1 same.2.trans

theorem Passed.change
    (passed : Passed st next awaits success effect id) (quiet : Quiet effect)
    (acts : ∀ row outcome, st.ended awaits success id = true →
      effect (st.contracts id) row = some outcome → Acts st id row outcome) : Change st next id := by
  obtain ⟨row, outcome, known, ended, made, rows, dataSets⟩ := passed
  refine .acted known (acts row outcome ended made) rows ?_ dataSets
  grind [Quiet]

theorem processBoth_change
    (first : Quiet successful) (second : Quiet failed) (once : order.Nodup)
    (succeeds : ∀ row outcome, st.ended awaits true id = true →
      successful (st.contracts id) row = some outcome → Acts st id row outcome)
    (fails : ∀ row outcome, st.ended awaits false id = true →
      failed (st.contracts id) row = some outcome → Acts st id row outcome) :
    Change st (processBoth successful failed awaits order st) id := by
  rcases processBoth_passed first once with kept | succeeded | hasFailed
  · exact .of_same kept
  · exact succeeded.change first succeeds
  · exact hasFailed.change second fails

theorem processTerminations_change (once : order.Nodup) (all : ∀ other ∈ st.ids, other ∈ order) :
    Change st (processTerminations order st) id := by
  rw [processTerminations_eq]
  split_ifs with finished
  · have reached := (passRows_ok (once.filter _) st).mp finished
    refine processBoth_change quiet_successfulTermination quiet_reconcileTermination once
      (fun _ _ => .successfulTermination) ?_
    intro row outcome ended made
    refine .failedTermination ended ?_ made
    grind
  · rcases passRows_passed once with
      kept | passed
    · exact .of_same kept
    · exact passed.change quiet_successfulTermination (fun _ _ => .successfulTermination)

theorem guarded_eq {condition : Prop} [Decidable condition] {made : State} :
    (if condition then some made else none) = some next ↔ condition ∧ made = next := by
  rw [Option.ite_none_right_eq_some, Option.some.injEq]

theorem step_row_eq {action : RowAction} :
    st.step (.row id action) = some next ↔ ∃ row outcome, st.rows id = some row ∧
      rowOutcome st (st.contracts id) row action = some outcome ∧
      (∀ sent, outcome.sent = some sent → sent.1 ∉ st.sends.map Prod.fst) ∧
      st.apply id outcome = next := by
  have isNew (outcome : Outcome) :
      outcome.sent.all (fun sent => sent.1 ∉ st.sends.map Prod.fst) = true ↔
        ∀ sent, outcome.sent = some sent → sent.1 ∉ st.sends.map Prod.fst := by
    cases outcome.sent with
    | none | some sent => simp
  simp only [State.step]
  constructor
  · grind
  · grind

theorem step_change {action : Action} (stepped : st.step action = some next) (once : st.ids.Nodup)
    (id : DataSetId) : Change st next id := by
  cases action with
  | row target action =>
    obtain ⟨row, outcome, known, made, -, rfl⟩ := step_row_eq.mp stepped
    by_cases same : id = target
    · subst same
      refine .acted known (.action action made) (apply_rows_same st id outcome) ?_
        (apply_dataSets_same st id outcome)
      intro sent sends
      simp [State.apply, sends]
    · exact .of_same ⟨apply_rows_other st target outcome same,
        apply_dataSets_other st target outcome same⟩
  | watchTerminations order =>
    obtain ⟨perm, rfl⟩ := guarded_eq.mp stepped
    exact processTerminations_change (perm.nodup_iff.mpr once) (fun _ => perm.mem_iff.mpr)
  | watchDeletes order =>
    obtain ⟨perm, rfl⟩ := guarded_eq.mp stepped
    exact processBoth_change quiet_successfulDelete quiet_failedDelete (perm.nodup_iff.mpr once)
      (fun _ _ => .successfulDelete) (fun _ _ => .failedDelete)
  | watchCleanups order =>
    obtain ⟨perm, rfl⟩ := guarded_eq.mp stepped
    exact processBoth_change quiet_reconcileCleanup quiet_failedCleanup (perm.nodup_iff.mpr once)
      (fun _ _ => .successfulCleanup) (fun _ _ => .failedCleanup)
  | endTask task =>
    cases stepped
    cases known : st.rows id with
    | none => exact .of_same ⟨by simp [known], rfl⟩
    | some row => exact .taskEnded task known (by simp [known]) rfl
  | request target client =>
    obtain ⟨absent, rfl⟩ := guarded_eq.mp stepped
    by_cases same : id = target
    · subst same
      refine .requested client absent (by simp) ?_ rfl
      by_cases listed : id ∈ st.ids <;> simp [listed]
    · exact .of_same ⟨by simp [same], rfl⟩
  | createDataSet target =>
    cases stepped
    refine .kept rfl (fun present => ?_)
    by_cases same : id = target <;> simp [same, present]
  | crashAfterSend | confirm | fail | pruneWait | markWaitReorged =>
    obtain ⟨-, rfl⟩ := guarded_eq.mp stepped
    exact .of_same ⟨rfl, rfl⟩
  | setContracts | setBlockNumber =>
    cases stepped
    exact .of_same ⟨rfl, rfl⟩

end Changes

section Selected

variable {hash : Hash} {row : Row}

theorem awaitsTermination_eq_some :
    row.awaitsTermination = some hash ↔ row.serviceTerminationEpoch = none ∧
      row.afterTerminateService = true ∧ row.terminateTxHash = some hash := by
  simp [Row.awaitsTermination, and_assoc]

theorem awaitsDelete_eq_some :
    row.awaitsDelete = some hash ↔ row.serviceTerminationEpoch ≠ none ∧ row.terminated = false ∧
      row.afterDeleteDataSet = true ∧ row.deleteTxHash = some hash := by
  simp [Row.awaitsDelete, and_assoc]

theorem awaitsCleanup_eq_some :
    row.awaitsCleanup = some hash ↔ row.serviceTerminationEpoch ≠ none ∧ row.terminated = false ∧
      row.afterDeleteDataSet = true ∧ row.cleanupPiecesTxHash = some hash := by
  simp [Row.awaitsCleanup, and_assoc]

theorem missing_iff {awaited : Option Hash} :
    st.missing awaited = true ↔ ∃ hash, awaited = some hash ∧ st.waits hash = none := by
  cases awaited with
  | none | some hash => simp [State.missing]

theorem ended_iff (known : st.rows id = some row) :
    st.ended awaits success id = true ↔ ∃ hash wait, awaits row = some hash ∧
      st.waits hash = some wait ∧ wait.outcome = some success := by
  simp only [State.ended, beq_iff_eq, Option.bind_eq_some_iff]
  constructor
  · grind
  · grind

end Selected

structure Row.Valid (row : Row) : Prop where
  notTerminated : row.terminated = false
  terminating : row.afterTerminateService = true →
    row.terminateServiceTaskId = none ∧ row.clientTerminateServiceTaskId = none
  sent : row.afterTerminateService = true → row.serviceTerminationEpoch = none →
    row.terminateTxHash ≠ none
  ended : row.serviceTerminationEpoch ≠ none → row.afterTerminateService = true
  deleting : row.deleteDataSetTaskId ≠ none → row.serviceTerminationEpoch ≠ none ∧
    row.deletionAllowed = true ∧ row.afterDeleteDataSet = false
  deleted : row.afterDeleteDataSet = true → row.serviceTerminationEpoch ≠ none ∧
    row.deletionAllowed = true
  deleteTx : row.deleteTxHash ≠ none → row.afterDeleteDataSet = true
  cleaning : row.cleanupPiecesTaskId ≠ none → row.afterDeleteDataSet = true ∧
    row.deleteTxHash = none ∧ row.cleanupPiecesTxHash = none
  cleanupTx : row.cleanupPiecesTxHash ≠ none → row.afterDeleteDataSet = true ∧
    row.deleteTxHash = none

theorem endTask_valid {next : Row} {task : TaskId} (valid : row.Valid)
    (after : row.endTask task = some next) : next.Valid := by
  unfold Row.endTask at after
  split_ifs at after with client
  cases after
  constructor <;> grind [Row.Valid]

variable {id : DataSetId} {hash : Hash} {st next : State} {action : Action}

theorem Acts.valid {next : Row} (known : st.rows id = some row) (valid : row.Valid)
    (acts : Acts st id row outcome) (after : outcome.row = some next) : next.Valid := by
  obtain ⟨open_, terminating, sent, ended, deleting, deleted, deleteTx, cleaning, cleanupTx⟩ := valid
  cases acts with
  | action action made =>
    cases action <;> grind [missing_iff, awaitsTermination_eq_some, awaitsDelete_eq_some, Row.Valid]
  | successfulTermination isEnded made =>
    grind [ended_iff, awaitsTermination_eq_some, Row.Valid]
  | failedTermination isEnded _ made => grind [ended_iff, awaitsTermination_eq_some, Row.Valid]
  | successfulDelete isEnded made | failedDelete isEnded made =>
    grind [ended_iff, awaitsDelete_eq_some, Row.Valid]
  | successfulCleanup isEnded made | failedCleanup isEnded made =>
    grind [Row.Valid]

theorem Acts.cleanupHash {next : Row} (acts : Acts st id row outcome)
    (after : outcome.row = some next) (recorded : next.cleanupPiecesTxHash = some hash) :
    row.cleanupPiecesTxHash = some hash ∨ outcome.sent = some (hash, reasonCleanupPieces) := by
  cases acts with
  | action action made => cases action <;> grind
  | successfulTermination _ made | failedTermination _ _ made | successfulDelete _ made
  | failedDelete _ made | successfulCleanup _ made | failedCleanup _ made => grind

/-- The messages: a hash is sent once, and only a transaction of the listed reasons is marked. -/
structure Messages (st : State) : Prop where
  sentOnce : (st.sends.map Prod.fst).Nodup
  confirmed : ∀ hash wait, st.waits hash = some wait → wait.txStatus = .confirmed →
    wait.txSuccess ≠ none
  reorged : ∀ hash wait, st.waits hash = some wait → wait.txStatus = .reorged →
    ∃ reason ∈ pdpv0SendReasons, (hash, reason) ∈ st.sends

section

variable (messages : Messages st)
include messages

theorem Messages.of_same (sends : next.sends = st.sends) (waits : next.waits = st.waits) :
    Messages next := by
  obtain ⟨sentOnce, confirmed, reorged⟩ := messages
  constructor
  · rwa [sends]
  · rwa [waits]
  · rwa [waits, sends]

theorem Messages.send {reason : SendReason}
    (new : hash ∉ st.sends.map Prod.fst) (sends : next.sends = st.sends ++ [(hash, reason)])
    (waits : ∀ other wait, next.waits other = some wait →
      st.waits other = some wait ∨ wait = { txStatus := .pending }) : Messages next := by
  constructor
  · rw [sends, map_append, nodup_append]
    refine ⟨messages.sentOnce, by simp, ?_⟩
    grind
  · intro other wait found status
    rcases waits other wait found with known | rfl
    · exact messages.confirmed other wait known status
    · cases status
  · intro other wait found status
    rcases waits other wait found with known | rfl
    · obtain ⟨cause, listed, sent⟩ := messages.reorged other wait known status
      exact ⟨cause, listed, sends ▸ mem_append_left _ sent⟩
    · cases status

theorem Messages.setWait (hash : Hash) {wait : Option Wait}
    (confirmed : ∀ found, wait = some found → found.txStatus = .confirmed → found.txSuccess ≠ none)
    (reorged : ∀ found, wait = some found → found.txStatus = .reorged →
      ∃ reason ∈ pdpv0SendReasons, (hash, reason) ∈ st.sends) : Messages (st.setWait hash wait) := by
  constructor
  · exact messages.sentOnce
  · intro other found known
    by_cases same : other = hash
    · subst same
      exact confirmed found (by simpa [State.setWait] using known)
    · exact messages.confirmed other found (by simpa [State.setWait, same] using known)
  · intro other found known
    by_cases same : other = hash
    · subst same
      exact reorged found (by simpa [State.setWait] using known)
    · exact messages.reorged other found (by simpa [State.setWait, same] using known)

end

theorem Frame.trans {middle : State} (first : Frame st middle) (second : Frame middle next) :
    Frame st next :=
  ⟨second.contracts.trans first.contracts, second.ids.trans first.ids,
    second.sends.trans first.sends, second.waits.trans first.waits⟩

theorem processBoth_frame (first : Quiet successful) (second : Quiet failed) :
    Frame st (processBoth successful failed awaits order st) :=
  (passRows_frame first _ st).trans (passRows_frame second _ _)

theorem processTerminations_frame : Frame st (processTerminations order st) := by
  rw [processTerminations_eq]
  split_ifs with finished
  · exact processBoth_frame quiet_successfulTermination quiet_reconcileTermination
  · exact passRows_frame quiet_successfulTermination _ st

/-- The messages are in order, and nothing that was sent or listed is forgotten. -/
structure Grows (st next : State) : Prop where
  messages : Messages next
  sends : st.sends ⊆ next.sends
  once : next.ids.Nodup
  ids : st.ids ⊆ next.ids

theorem Frame.grows (frame : Frame st next) (messages : Messages st) (once : st.ids.Nodup) :
    Grows st next where
  messages := messages.of_same frame.sends frame.waits
  sends := frame.sends ▸ Subset.refl _
  once := frame.ids ▸ once
  ids := frame.ids ▸ Subset.refl _

theorem step_grows (messages : Messages st) (once : st.ids.Nodup)
    (stepped : st.step action = some next) : Grows st next := by
  cases action with
  | row id action =>
    obtain ⟨row, outcome, -, -, new, rfl⟩ := step_row_eq.mp stepped
    refine ⟨?_, subset_append_left _ _, once, Subset.refl _⟩
    cases sent : outcome.sent with
    | none => exact messages.of_same (by simp [State.apply, sent]) (by simp [State.apply, sent])
    | some message =>
      obtain ⟨hash, reason⟩ := message
      have sends : (st.apply id outcome).sends = st.sends ++ [(hash, reason)] := by
        simp [State.apply, sent]
      refine messages.send (new _ sent) sends ?_
      intro other wait found
      simp only [State.apply, sent] at found
      grind
  | watchTerminations order =>
    obtain ⟨-, rfl⟩ := guarded_eq.mp stepped
    exact processTerminations_frame.grows messages once
  | watchDeletes order =>
    obtain ⟨-, rfl⟩ := guarded_eq.mp stepped
    exact (processBoth_frame quiet_successfulDelete quiet_failedDelete).grows messages once
  | watchCleanups order =>
    obtain ⟨-, rfl⟩ := guarded_eq.mp stepped
    exact (processBoth_frame quiet_reconcileCleanup quiet_failedCleanup).grows messages once
  | request id client =>
    obtain ⟨-, rfl⟩ := guarded_eq.mp stepped
    refine ⟨messages.of_same rfl rfl, Subset.refl _, ?_, ?_⟩
    all_goals grind
  | endTask | createDataSet | setContracts | setBlockNumber =>
    cases stepped
    exact ⟨messages.of_same rfl rfl, Subset.refl _, once, Subset.refl _⟩
  | crashAfterSend hash reason =>
    obtain ⟨new, rfl⟩ := guarded_eq.mp stepped
    exact ⟨messages.send new rfl (fun _ _ found => .inl found), subset_append_left _ _, once,
      Subset.refl _⟩
  | confirm hash | fail hash =>
    obtain ⟨-, rfl⟩ := guarded_eq.mp stepped
    refine ⟨messages.setWait hash ?_ ?_, Subset.refl _, once, Subset.refl _⟩
    all_goals grind
  | pruneWait hash =>
    obtain ⟨-, rfl⟩ := guarded_eq.mp stepped
    refine ⟨messages.setWait hash ?_ ?_, Subset.refl _, once, Subset.refl _⟩
    · rintro found ⟨⟩
    · rintro found ⟨⟩
  | markWaitReorged hash =>
    obtain ⟨⟨-, listed⟩, rfl⟩ := guarded_eq.mp stepped
    obtain ⟨send, member, same⟩ := any_eq_true.mp listed
    refine ⟨messages.setWait hash ?_ ?_, Subset.refl _, once, Subset.refl _⟩
    · rintro found ⟨⟩ ⟨⟩
    · grind

structure Sound (st : State) : Prop where
  messages : Messages st
  once : st.ids.Nodup
  listed : ∀ id row, st.rows id = some row → id ∈ st.ids
  valid : ∀ id row, st.rows id = some row → row.Valid
  cleanups : ∀ id row hash, st.rows id = some row → row.cleanupPiecesTxHash = some hash →
    (hash, reasonCleanupPieces) ∈ st.sends

theorem step_sound (sound : Sound st) (stepped : st.step action = some next) : Sound next := by
  obtain ⟨messages, sends, once, ids⟩ := step_grows sound.messages sound.once stepped
  have changed := step_change stepped sound.once
  refine ⟨messages, once, ?_, ?_, ?_⟩
  · intro id after found
    cases changed id with
    | kept rows _ => exact ids (sound.listed id after (rows ▸ found))
    | acted known _ _ _ _ | taskEnded task known _ _ => exact ids (sound.listed id _ known)
    | requested client _ _ listed _ => exact listed
  · intro id after found
    cases changed id with
    | kept rows _ => exact sound.valid id after (rows ▸ found)
    | acted known acts rows _ _ => exact acts.valid known (sound.valid id _ known) (rows ▸ found)
    | taskEnded task known rows _ => exact endTask_valid (sound.valid id _ known) (rows ▸ found)
    | requested client _ rows _ _ =>
      cases rows.symm.trans found
      constructor <;> simp
  · intro id after hash found recorded
    cases changed id with
    | kept rows _ => exact sends (sound.cleanups id after hash (rows ▸ found) recorded)
    | acted known acts rows sent _ =>
      rcases acts.cleanupHash (rows ▸ found) recorded with earlier | new
      · exact sends (sound.cleanups id _ hash known earlier)
      · exact sent _ new
    | @taskEnded row task known rows _ =>
      refine sends (sound.cleanups id row hash known ?_)
      grind [Row.endTask]
    | requested client _ rows _ _ => grind

structure Fresh (st : State) : Prop where
  rows : ∀ id, st.rows id = none
  ids : st.ids = []
  sends : st.sends = []
  waits : ∀ hash, st.waits hash = none

theorem sound_of_fresh (fresh : Fresh st) : Sound st := by
  have messages : Messages st :=
    ⟨by simp [fresh.sends], by simp [fresh.waits], by simp [fresh.waits]⟩
  exact ⟨messages, by simp [fresh.ids], by simp [fresh.rows], by simp [fresh.rows],
    by simp [fresh.rows]⟩

theorem sound_of_run {start : State} (fresh : Fresh start) {actions : List Action}
    (ran : run State.step start actions = some st) : Sound st :=
  run_keeps (fun _ _ _ sound stepped => step_sound sound stepped) (sound_of_fresh fresh) ran

theorem cleanup_not_reorged (sound : Sound st) (known : st.rows id = some row)
    (recorded : row.cleanupPiecesTxHash = some hash) {wait : Wait}
    (found : st.waits hash = some wait) : wait.txStatus ≠ .reorged := by
  intro reorged
  obtain ⟨reason, listed, sent⟩ := sound.messages.reorged hash wait found reorged
  have cleanup := sound.cleanups id row hash known recorded
  have same : reason = reasonCleanupPieces :=
    congrArg Prod.snd (inj_on_of_nodup_map sound.messages.sentOnce sent cleanup rfl)
  subst same
  revert listed
  decide

end Curio.Pdp.Deletion
