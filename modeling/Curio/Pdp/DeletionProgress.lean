import Curio.Pdp.WatcherPass

/-! Which rows of `pdp_delete_data_set` the pipeline can still move on.

A row that waits for a termination or a deletion whose wait was marked as reorged is selected by
nobody, nor is one that waits for a confirmed transaction without its effect on the chain, and such
a termination also stops the watcher before the failed ones. Every other row can be moved on. -/

namespace Curio.Pdp.Deletion

open GoRuntime StepMachine List
open ReorgCheck (Hash SendReason WaitStatus pdpv0SendReasons)

/-- The row is gone or another one. That its deletion is allowed moves it on only where it waits for
that. -/
def Moved (row : Row) (next : Option Row) : Prop :=
  next ≠ some row ∧ (next = some { row with deletionAllowed := true } →
    row.serviceTerminationEpoch ≠ none ∧ row.afterDeleteDataSet = false)

/-- The row waits for a transaction, for the termination epoch or for its rail. -/
inductive WaitOpen (st : State) (id : DataSetId) (row : Row) : Prop
  | transaction {hash : Hash} {wait : Wait}
      (awaited : row.awaitsTermination = some hash ∨ row.awaitsDelete = some hash ∨
        row.awaitsCleanup = some hash)
      (found : st.waits hash = some wait) (pending : wait.txStatus = .pending)
  | epoch {epoch : Nat} (known : row.serviceTerminationEpoch = some epoch)
      (before : row.afterDeleteDataSet = false) (later : st.blockNumber < epoch)
  | rail (known : row.serviceTerminationEpoch ≠ none) (before : row.afterDeleteDataSet = false)
      (notAllowed : row.deletionAllowed = false) (notFinal : (st.contracts id).railFinal = false)

/-- Some step moves the row on, in some order in which the database gives the rows, or it waits for
something that is still open. -/
def Movable (st : State) (id : DataSetId) (row : Row) : Prop :=
  (∃ action next, st.step action = some next ∧ Moved row (next.rows id)) ∨ WaitOpen st id row

structure Readable (contracts : Contracts) : Prop where
  service : ∃ epoch, contracts.pdpEndEpoch = .ok epoch
  verifier : ∃ state, readDataSetCleanupState contracts.verifier = .ok state ∧
    (state.live = true ∨ state.cleanupMode = true ∨ state.finalized = true)

inductive Stranded (st : State) (id : DataSetId) (row : Row) : Prop
  | reorgedTermination {hash : Hash} {wait : Wait} (awaited : row.awaitsTermination = some hash)
      (found : st.waits hash = some wait) (marked : wait.txStatus = .reorged)
  /-- The termination is confirmed, but the service is not terminated. -/
  | lostTermination {hash : Hash} {wait : Wait} (awaited : row.awaitsTermination = some hash)
      (found : st.waits hash = some wait) (confirmed : wait.outcome = some true)
      (lost : (st.contracts id).pdpEndEpoch = .ok 0)
  /-- The termination has failed, and the watcher stops at a lost one. -/
  | blockedTermination {hash : Hash} {wait : Wait} (awaited : row.awaitsTermination = some hash)
      (found : st.waits hash = some wait) (failed : wait.outcome = some false) (other : DataSetId)
      (confirmed : st.ended Row.awaitsTermination true other = true)
      (lost : (st.contracts other).pdpEndEpoch = .ok 0)
  | reorgedDelete {hash : Hash} {wait : Wait} (awaited : row.awaitsDelete = some hash)
      (found : st.waits hash = some wait) (marked : wait.txStatus = .reorged)
      (unfinished : ∀ state, readDataSetCleanupState (st.contracts id).verifier = .ok state →
        state.finalized = false)
  /-- The deletion is confirmed, but the data set is live. -/
  | lostDelete {hash : Hash} {wait : Wait} {state : CleanupState}
      (awaited : row.awaitsDelete = some hash) (found : st.waits hash = some wait)
      (confirmed : wait.outcome = some true)
      (read : readDataSetCleanupState (st.contracts id).verifier = .ok state)
      (live : state.live = true)

variable {st : State} {state : CleanupState} {wait : Wait} {id : DataSetId}

section Facts

variable {wait : Wait}

theorem outcome_true : wait.outcome = some true ↔
    wait.txStatus = .confirmed ∧ wait.txSuccess = some true := by
  grind [Wait.outcome]

theorem outcome_false : wait.outcome = some false ↔
    wait.txStatus = .failed ∨ wait.txStatus = .confirmed ∧ wait.txSuccess = some false := by
  grind [Wait.outcome]

theorem wait_cases (messages : Messages st) {hash : Hash} (found : st.waits hash = some wait) :
    wait.txStatus = .pending ∨ wait.txStatus = .reorged ∨
      wait.outcome = some true ∨ wait.outcome = some false := by
  cases status : wait.txStatus with
  | pending => exact .inl rfl
  | reorged => exact .inr (.inl rfl)
  | failed => exact .inr (.inr (.inr (outcome_false.mpr (.inl status))))
  | confirmed =>
    have known := messages.confirmed hash wait found status
    cases success : wait.txSuccess with
    | none => exact absurd success known
    | some value =>
      cases value with
      | true => exact .inr (.inr (.inl (outcome_true.mpr ⟨status, success⟩)))
      | false => grind [Wait.outcome]

theorem cleanupMode_read {verifier : Verifier} (read : readDataSetCleanupState verifier = .ok state)
    (mode : state.cleanupMode = true) :
    state.live = false ∧ state.finalized = false ∧ state.nextPieceID ≠ 0 := by
  grind [readDataSetCleanupState, finalizedDataSetCleanupState, CleanupState.finalized]

end Facts

section DeadEnds

variable {row : Row} {hash : Hash} {st : State} {id : DataSetId} {outcome : Outcome}

theorem Row.Valid.taskless (valid : row.Valid)
    (awaited : row.awaitsTermination = some hash ∨ row.awaitsDelete = some hash) :
    row.terminateServiceTaskId = none ∧ row.clientTerminateServiceTaskId = none ∧
      row.deleteDataSetTaskId = none ∧ row.cleanupPiecesTaskId = none := by
  grind [Row.Valid, awaitsTermination_eq_some, awaitsDelete_eq_some]

theorem awaits_of_awaitsTermination (awaited : row.awaitsTermination = some hash) :
    row.awaitsDelete = none ∧ row.awaitsCleanup = none := by
  grind [awaitsTermination_eq_some, Row.awaitsDelete, Row.awaitsCleanup]

theorem Row.Valid.of_awaitsDelete (valid : row.Valid) (awaited : row.awaitsDelete = some hash) :
    row.deletionAllowed = true ∧ row.awaitsTermination = none ∧ row.awaitsCleanup = none := by
  grind [Row.Valid, awaitsDelete_eq_some, Row.awaitsTermination, Row.awaitsCleanup]

theorem endTask_of_taskless {task : TaskId} (taskless : row.terminateServiceTaskId = none ∧
      row.clientTerminateServiceTaskId = none ∧ row.deleteDataSetTaskId = none ∧
      row.cleanupPiecesTaskId = none) : row.endTask task = some row := by
  obtain ⟨_, _, _, _, _, _, _, _, _, _, _, _, _⟩ := row
  obtain ⟨rfl, rfl, rfl, rfl⟩ := taskless
  simp [Row.endTask]

theorem Stranded.awaits (stranded : Stranded st id row) :
    ∃ hash wait, (row.awaitsTermination = some hash ∨ row.awaitsDelete = some hash) ∧
      st.waits hash = some wait ∧ wait.txStatus ≠ .pending := by
  cases stranded with
  | @reorgedTermination hash wait awaited found marked =>
    exact ⟨hash, wait, .inl awaited, found, by simp [marked]⟩
  | @lostTermination hash wait awaited found confirmed _
  | @blockedTermination hash wait awaited found failed _ _ _ => grind [Wait.outcome]
  | @reorgedDelete hash wait awaited found marked _ =>
    exact ⟨hash, wait, .inr awaited, found, by simp [marked]⟩
  | @lostDelete hash wait _ awaited found confirmed _ _ => grind [Wait.outcome]

theorem taskless_outcome {contracts : Contracts} {action : RowAction} (valid : row.Valid)
    (awaited : row.awaitsTermination = some hash ∨ row.awaitsDelete = some hash)
    (made : rowOutcome st contracts row action = some outcome) :
    action = .syncTermination ∨ action = .syncDelete ∨ action = .syncCleanup ∨
      action = .syncRail ∨ action = .syncVerifier ∨ action = .settleRail := by
  obtain ⟨noTerminate, -, noDelete, noCleanup⟩ := valid.taskless awaited
  cases action with
  | scheduleTerminate task =>
    grind [awaitsTermination_eq_some, awaitsDelete_eq_some, Row.Valid]
  | doTerminate task hash => simp [rowOutcome, TerminateTask.Do, noTerminate] at made
  | scheduleDelete task =>
    grind [awaitsTermination_eq_some, awaitsDelete_eq_some]
  | doDelete task hash => simp [rowOutcome, DeleteTask.Do, noDelete] at made
  | scheduleCleanup task =>
    grind [awaitsTermination_eq_some, awaitsDelete_eq_some]
  | doCleanup task hash => simp [rowOutcome, CleanupTask.Do, noCleanup] at made
  | _ => simp

/-- Nothing but the payment watcher touches a row that waits for a stranded termination. -/
theorem Acts.stranded_termination (known : st.rows id = some row) (valid : row.Valid)
    (listed : ∀ other found, st.rows other = some found → other ∈ st.ids)
    (awaited : row.awaitsTermination = some hash) (found : st.waits hash = some wait)
    (stuck : wait.txStatus = .reorged ∨
      wait.outcome = some true ∧ (st.contracts id).pdpEndEpoch = .ok 0 ∨
      wait.outcome = some false ∧ ∃ other, st.ended Row.awaitsTermination true other = true ∧
        (st.contracts other).pdpEndEpoch = .ok 0) (acts : Acts st id row outcome) :
    outcome.row = some { row with deletionAllowed := true } := by
  obtain ⟨noDelete, noCleanup⟩ := awaits_of_awaitsTermination awaited
  obtain ⟨unknown, -, -⟩ := awaitsTermination_eq_some.mp awaited
  cases acts with
  | action action made =>
    rcases taskless_outcome valid (.inl awaited) made with rfl | rfl | rfl | rfl | rfl | rfl
    · simp [rowOutcome, State.missing, awaited, found] at made
    · simp [rowOutcome, State.missing, noDelete] at made
    · simp [rowOutcome, State.missing, noCleanup] at made
    all_goals grind
  | successfulTermination ended made =>
    grind [ended_iff, outcome_true, outcome_false]
  | failedTermination ended reached made =>
    obtain ⟨otherHash, otherWait, same, otherFound, failed⟩ := (ended_iff known).mp ended
    cases awaited.symm.trans same
    cases found.symm.trans otherFound
    rcases stuck with marked | ⟨confirmed, -⟩ | ⟨-, other, confirmed, lost⟩
    · grind [outcome_false]
    · rw [failed] at confirmed
      cases confirmed
    · -- the watcher has stopped before it comes to this row
      cases present : st.rows other with
      | none => simp [State.ended, present] at confirmed
      | some blocker => grind
  | successfulDelete ended made | failedDelete ended made | successfulCleanup ended made
  | failedCleanup ended made => grind [ended_iff]

theorem Acts.stranded_delete (known : st.rows id = some row) (valid : row.Valid)
    (awaited : row.awaitsDelete = some hash) (found : st.waits hash = some wait)
    (stuck : wait.txStatus = .reorged ∧
        (∀ state, readDataSetCleanupState (st.contracts id).verifier = .ok state →
          state.finalized = false) ∨
      wait.outcome = some true ∧
        ∃ state, readDataSetCleanupState (st.contracts id).verifier = .ok state ∧ state.live = true)
    (acts : Acts st id row outcome) :
    outcome.row = some { row with deletionAllowed := true } := by
  obtain ⟨allowed, noTermination, noCleanup⟩ := valid.of_awaitsDelete awaited
  obtain ⟨-, -, deleted, -⟩ := awaitsDelete_eq_some.mp awaited
  cases acts with
  | action action made =>
    rcases taskless_outcome valid (.inr awaited) made with rfl | rfl | rfl | rfl | rfl | rfl
    · simp [rowOutcome, State.missing, noTermination] at made
    · simp [rowOutcome, State.missing, awaited, found] at made
    · simp [rowOutcome, State.missing, noCleanup] at made
    all_goals grind
  | successfulTermination ended made | failedTermination ended reached made => grind [ended_iff]
  | successfulDelete ended made =>
    grind [ended_iff, outcome_true]
  | failedDelete ended made => grind [ended_iff, outcome_true, outcome_false]
  | successfulCleanup ended made | failedCleanup ended made => grind [ended_iff]

variable (stranded : Stranded st id row) (sound : Sound st) (known : st.rows id = some row)
include stranded sound known

theorem Stranded.acts (acts : Acts st id row outcome) :
    outcome.row = some { row with deletionAllowed := true } := by
  have valid := sound.valid id row known
  cases stranded with
  | reorgedTermination awaited found marked =>
    exact acts.stranded_termination known valid sound.listed awaited found (.inl marked)
  | lostTermination awaited found confirmed lost =>
    exact acts.stranded_termination known valid sound.listed awaited found
      (.inr (.inl ⟨confirmed, lost⟩))
  | blockedTermination awaited found failed other confirmed lost =>
    exact acts.stranded_termination known valid sound.listed awaited found
      (.inr (.inr ⟨failed, other, confirmed, lost⟩))
  | reorgedDelete awaited found marked unfinished =>
    exact acts.stranded_delete known valid awaited found (.inl ⟨marked, unfinished⟩)
  | lostDelete awaited found confirmed read live =>
    exact acts.stranded_delete known valid awaited found (.inr ⟨confirmed, _, read, live⟩)

theorem Stranded.not_movable : ¬ Movable st id row := by
  have valid := sound.valid id row known
  obtain ⟨hash, wait, awaited, found, settled⟩ := stranded.awaits
  rintro (⟨action, next, stepped, different, stage⟩ | waits)
  · cases step_change stepped sound.once id with
    | kept rows _ => exact different (rows.trans known)
    | acted present acts rows _ _ =>
      cases known.symm.trans present
      have after := rows.trans (stranded.acts sound known acts)
      obtain ⟨epoch, before⟩ := stage after
      rcases awaited with termination | delete
      · exact epoch (awaitsTermination_eq_some.mp termination).1
      · simp [(awaitsDelete_eq_some.mp delete).2.2.1] at before
    | taskEnded task present rows _ =>
      cases known.symm.trans present
      exact different (rows.trans (endTask_of_taskless (valid.taskless awaited)))
    | requested _ absent _ _ _ =>
      rw [known] at absent
      cases absent
  · grind [WaitOpen, Row.Valid, awaitsTermination_eq_some, awaitsDelete_eq_some,
      awaitsCleanup_eq_some]

end DeadEnds

section Progress

variable {st : State} {id : DataSetId} {row : Row} {outcome : Outcome} {rest : List DataSetId}
  {hash : Hash}

theorem exists_new_hash (st : State) : ∃ hash, hash ∉ st.sends.map Prod.fst := by
  obtain ⟨hash, new⟩ := Infinite.exists_notMem_finset (st.sends.map Prod.fst).toFinset
  exact ⟨hash, fun member => new (mem_toFinset.mpr member)⟩

theorem movable_of_outcome (action : RowAction) (known : st.rows id = some row)
    (made : rowOutcome st (st.contracts id) row action = some outcome)
    (new : ∀ sent, outcome.sent = some sent → sent.1 ∉ st.sends.map Prod.fst)
    (moved : Moved row outcome.row) : Movable st id row := by
  refine .inl ⟨.row id action, st.apply id outcome, ?_, ?_⟩
  · exact step_row_eq.mpr ⟨row, outcome, known, made, new, rfl⟩
  · rwa [apply_rows_same]

theorem movable_of_action (action : RowAction) (known : st.rows id = some row)
    (acts : rowOutcome st (st.contracts id) row action ≠ none)
    (moves : ∀ outcome, rowOutcome st (st.contracts id) row action = some outcome →
      (∀ sent, outcome.sent = some sent → sent.1 ∉ st.sends.map Prod.fst) ∧
        Moved row outcome.row) : Movable st id row := by
  obtain ⟨outcome, made⟩ := Option.ne_none_iff_exists'.mp acts
  exact movable_of_outcome action known made (moves outcome made).1 (moves outcome made).2

section

variable (known : st.rows id = some row) (readable : Readable (st.contracts id))
include known readable

/-- Before the termination: a task is scheduled, or runs. -/
theorem movable_terminating (before : row.afterTerminateService = false) : Movable st id row := by
  cases assigned : row.terminateServiceTaskId with
  | none =>
    refine movable_of_action (.scheduleTerminate 0) known ?_ ?_
    · grind
    · grind [Moved]
  | some task =>
    obtain ⟨epoch, read⟩ := readable.service
    obtain ⟨hash, new⟩ := exists_new_hash st
    by_cases unsupported : epoch = 0 ∧ row.clientRequestedTermination = true ∧
        (st.contracts id).supportsClientTermination ≠ .ok true
    · -- the task fails for good, and the row of the client goes with it
      refine .inl ⟨.endTask task, _, rfl, ?_⟩
      simp only [known, Option.bind_some]
      grind [Moved, Row.endTask]
    · refine movable_of_action (.doTerminate task hash) known ?_ ?_
      · grind
      · grind [Moved]

/-- Before the deletion: a task is scheduled or runs, or the row waits for its epoch or rail. -/
theorem movable_deleting (valid : row.Valid) (ended : row.serviceTerminationEpoch ≠ none)
    (before : row.afterDeleteDataSet = false) :
    Movable st id row := by
  obtain ⟨epoch, isEpoch⟩ := Option.ne_none_iff_exists'.mp ended
  cases assigned : row.deleteDataSetTaskId with
  | none =>
    by_cases early : st.blockNumber < epoch
    · exact .inr (.epoch isEpoch before early)
    · have after := valid.ended ended
      cases allowed : row.deletionAllowed with
      | true =>
        refine movable_of_action (.scheduleDelete 0) known ?_ ?_
        · grind
        · grind [Moved]
      | false =>
        cases final : (st.contracts id).railFinal with
        | false => exact .inr (.rail ended before allowed final)
        | true =>
          obtain ⟨service, read⟩ := readable.service
          have made : rowOutcome st (st.contracts id) row .syncRail =
              some (ensureDataSetDeletion row) := by
            grind [Row.epochElapsed]
          refine movable_of_outcome .syncRail known made (by simp [ensureDataSetDeletion]) ?_
          grind [Moved]
  | some task =>
    obtain ⟨state, read, phase⟩ := readable.verifier
    obtain ⟨hash, new⟩ := exists_new_hash st
    refine movable_of_action (.doDelete task hash) known ?_ ?_
    · grind
    · grind [Moved]

end

variable (sound : Sound st) (known : st.rows id = some row)
include sound known

theorem movable_of_watched (w : Watcher) {success : Bool} {wait : Wait}
    (awaited : w.awaits row = some hash) (waiting : st.waits hash = some wait)
    (ended : wait.outcome = some success)
    (made : w.effect success (st.contracts id) row = some outcome)
    (passable : w = .terminations → success = false → w.Passable true st (id :: st.ids.erase id))
    (moved : Moved row outcome.row) : Movable st id row := by
  have perm := (perm_cons_erase (sound.listed id row known)).symm
  have once : ([] ++ id :: st.ids.erase id).Nodup := perm.nodup_iff.mpr sound.once
  have reached := Watcher.pass_reached once known
    ((ended_iff known).mpr ⟨hash, wait, awaited, waiting, ended⟩) made
    ⟨by simp [Watcher.Passable], passable⟩
  have stepped : ∃ action, st.step action = some (w.pass (id :: st.ids.erase id) st) := by
    cases w with
    | terminations => exact ⟨.watchTerminations _, guarded_eq.mpr ⟨perm, rfl⟩⟩
    | deletes => exact ⟨.watchDeletes _, guarded_eq.mpr ⟨perm, rfl⟩⟩
    | cleanups => exact ⟨.watchCleanups _, guarded_eq.mpr ⟨perm, rfl⟩⟩
  obtain ⟨action, stepped⟩ := stepped
  exact .inl ⟨action, _, stepped, reached ▸ moved⟩

theorem movable_terminated (readable : ∀ other found, st.rows other = some found →
      Readable (st.contracts other)) (awaited : row.awaitsTermination = some hash)
    (free : ¬ Stranded st id row) : Movable st id row := by
  obtain ⟨epoch, read⟩ := (readable id row known).service
  obtain ⟨unknown, after, sent⟩ := awaitsTermination_eq_some.mp awaited
  have reconciled (outcome : Outcome)
      (made : reconcileTermination (st.contracts id) row = some outcome) :
      Moved row outcome.row := by
    grind [Moved]
  cases waiting : st.waits hash with
  | none =>
    cases made : reconcileTermination (st.contracts id) row with
    | none => grind
    | some outcome =>
      have outcomeMade : rowOutcome st (st.contracts id) row .syncTermination = some outcome := by
        simp [rowOutcome, State.missing, awaited, waiting, syncMissingTermination, made]
      refine movable_of_outcome .syncTermination known outcomeMade ?_ (reconciled outcome made)
      simp [quiet_reconcileTermination _ _ _ made]
  | some wait =>
    rcases wait_cases sound.messages waiting with pending | marked | confirmed | failed
    · exact .inr (.transaction (.inl awaited) waiting pending)
    · exact absurd (.reorgedTermination awaited waiting marked) free
    · cases made : successfulTermination (st.contracts id) row with
      | none =>
        have lost : (st.contracts id).pdpEndEpoch = .ok 0 := by
          grind
        exact absurd (.lostTermination awaited waiting confirmed lost) free
      | some outcome =>
        refine movable_of_watched sound known .terminations awaited waiting confirmed made (by simp) ?_
        grind [Moved]
    · have reached : Watcher.terminations.Passable true st (id :: st.ids.erase id) := by
        intro other _ isEnded found present
        obtain ⟨otherEpoch, otherRead⟩ := (readable other found present).service
        by_contra stops
        change ¬ (successfulTermination (st.contracts other) found).isSome at stops
        have lost : (st.contracts other).pdpEndEpoch = .ok 0 := by
          grind
        exact free (.blockedTermination awaited waiting failed other isEnded lost)
      cases made : reconcileTermination (st.contracts id) row with
      | none => grind
      | some outcome =>
        exact movable_of_watched sound known .terminations awaited waiting failed made
          (fun _ _ => reached) (reconciled outcome made)

section

variable (readable : Readable (st.contracts id))
include readable

theorem movable_deleted (awaited : row.awaitsDelete = some hash) (free : ¬ Stranded st id row) :
    Movable st id row := by
  obtain ⟨state, read, phase⟩ := readable.verifier
  obtain ⟨-, notTerminated, deleted, sent⟩ := awaitsDelete_eq_some.mp awaited
  have valid := sound.valid id row known
  cases waiting : st.waits hash with
  | none =>
    have missing : st.missing row.awaitsDelete = true := by
      simp [State.missing, awaited, waiting]
    refine movable_of_action .syncDelete known ?_ ?_
    · grind
    · grind [Moved]
  | some wait =>
    rcases wait_cases sound.messages waiting with pending | marked | confirmed | failed
    · exact .inr (.transaction (.inr (.inl awaited)) waiting pending)
    · cases final : state.finalized with
      | false =>
        refine absurd (.reorgedDelete awaited waiting marked ?_) free
        grind
      | true =>
        -- the chain sync deletes the row of a finalized data set, whatever it waits for
        obtain ⟨epoch, allowed⟩ := valid.deleted deleted
        have made : rowOutcome st (st.contracts id) row .syncVerifier =
            some cleanupFinalizedDataSet := by
          grind [CleanupState.finalized]
        refine movable_of_outcome .syncVerifier known made ?_ ?_
        · simp [cleanupFinalizedDataSet]
        · simp [cleanupFinalizedDataSet, Moved]
    · cases made : successfulDelete (st.contracts id) row with
      | none =>
        have live : state.live = true := by grind
        exact absurd (.lostDelete awaited waiting confirmed read live) free
      | some outcome =>
        refine movable_of_watched sound known .deletes awaited waiting confirmed made (by simp) ?_
        grind [Moved]
    · cases made : failedDelete (st.contracts id) row with
      | none => grind
      | some outcome =>
        refine movable_of_watched sound known .deletes awaited waiting failed made (by simp) ?_
        grind [Moved]

/-- The row waits for a batch of the cleanup; its wait is never marked as reorged. -/
theorem movable_cleaned (awaited : row.awaitsCleanup = some hash) : Movable st id row := by
  obtain ⟨state, read, phase⟩ := readable.verifier
  obtain ⟨-, -, deleted, sent⟩ := awaitsCleanup_eq_some.mp awaited
  have reconciled : ∃ outcome, reconcileCleanup (st.contracts id) row = some outcome ∧
      Moved row outcome.row := by
    cases made : reconcileCleanup (st.contracts id) row with
    | none => grind
    | some outcome =>
      grind [Moved]
  obtain ⟨outcome, made, moved⟩ := reconciled
  cases waiting : st.waits hash with
  | none =>
    have outcomeMade : rowOutcome st (st.contracts id) row .syncCleanup = some outcome := by
      simp [rowOutcome, State.missing, awaited, waiting, syncMissingCleanup, made]
    refine movable_of_outcome .syncCleanup known outcomeMade ?_ moved
    simp [quiet_reconcileCleanup _ _ _ made]
  | some wait =>
    rcases wait_cases sound.messages waiting with pending | marked | confirmed | failed
    · exact .inr (.transaction (.inr (.inr awaited)) waiting pending)
    · exact absurd marked (cleanup_not_reorged sound known sent waiting)
    · exact movable_of_watched sound known .cleanups awaited waiting confirmed made (by simp) moved
    · cases failure : failedCleanup (st.contracts id) row with
      | none => grind
      | some outcome =>
        refine movable_of_watched sound known .cleanups awaited waiting failed failure (by simp) ?_
        grind [Moved]

theorem movable_cleaning (deleted : row.afterDeleteDataSet = true)
    (noHash : row.deleteTxHash = none) :
    Movable st id row := by
  obtain ⟨state, read, phase⟩ := readable.verifier
  have valid := sound.valid id row known
  obtain ⟨epoch, allowed⟩ := valid.deleted deleted
  cases sent : row.cleanupPiecesTxHash with
  | some hash =>
    have awaited : row.awaitsCleanup = some hash :=
      awaitsCleanup_eq_some.mpr ⟨epoch, valid.notTerminated, deleted, sent⟩
    exact movable_cleaned sound known readable awaited
  | none =>
    cases assigned : row.cleanupPiecesTaskId with
    | none =>
      have ready : row.readyForCleanup = true := by
        simp [Row.readyForCleanup, sent, assigned, deleted, noHash, valid.notTerminated,
          Option.isSome_iff_ne_none, epoch]
      refine movable_of_action (.scheduleCleanup 0) known ?_ ?_
      · grind
      · grind [Moved]
    | some task =>
      have cleaning := cleanupMode_read read
      obtain ⟨hash, new⟩ := exists_new_hash st
      refine movable_of_action (.doCleanup task hash) known ?_ ?_
      · grind
      · grind [Moved]

end

theorem movable_of_not_stranded (readable : ∀ other found, st.rows other = some found →
      Readable (st.contracts other)) (free : ¬ Stranded st id row) : Movable st id row := by
  have valid := sound.valid id row known
  have here := readable id row known
  cases terminating : row.afterTerminateService with
  | false => exact movable_terminating known here terminating
  | true =>
    cases epoch : row.serviceTerminationEpoch with
    | none =>
      obtain ⟨hash, sent⟩ := Option.ne_none_iff_exists'.mp (valid.sent terminating epoch)
      have awaited := awaitsTermination_eq_some.mpr ⟨epoch, terminating, sent⟩
      exact movable_terminated sound known readable awaited free
    | some value =>
      have isKnown : row.serviceTerminationEpoch ≠ none := by simp [epoch]
      cases deleting : row.afterDeleteDataSet with
      | false => exact movable_deleting known here valid isKnown deleting
      | true =>
        cases sent : row.deleteTxHash with
        | none => exact movable_cleaning sound known here deleting sent
        | some hash =>
          have awaited := awaitsDelete_eq_some.mpr ⟨isKnown, valid.notTerminated, deleting, sent⟩
          exact movable_deleted sound known here awaited free

end Progress

theorem Acts.dropsDataSet {row : Row} {outcome : Outcome} (acts : Acts st id row outcome)
    (drops : outcome.dropsDataSet = true) :
    ∃ state, readDataSetCleanupState (st.contracts id).verifier = .ok state ∧
      state.finalized = true := by
  cases acts with
  | action action made => cases action <;> grind
  | successfulTermination _ made | failedTermination _ _ made | successfulDelete _ made
  | failedDelete _ made | successfulCleanup _ made | failedCleanup _ made => grind

theorem step_drops {next : State} {action : Action} (sound : Sound st)
    (stepped : st.step action = some next) (present : st.dataSets id = true)
    (gone : next.dataSets id = false) :
    ∃ state, readDataSetCleanupState (st.contracts id).verifier = .ok state ∧
      state.finalized = true := by
  cases step_change stepped sound.once id with
  | kept _ dataSets => simp [dataSets present] at gone
  | acted _ acts _ _ dataSets => exact acts.dropsDataSet (dataSets present gone)
  | taskEnded _ _ _ dataSets | requested _ _ _ _ dataSets => simp [dataSets, present] at gone

def liveContracts (endEpoch : Nat) : Contracts where
  pdpEndEpoch := .ok endEpoch
  supportsClientTermination := .ok true
  verifier := ⟨.ok true, .ok 3, .ok 900⟩
  rail := .ok ⟨endEpoch, 0⟩

theorem liveContracts_readable {endEpoch : Nat} : Readable (liveContracts endEpoch) :=
  ⟨⟨endEpoch, rfl⟩, ⟨true, false, 3⟩, rfl, .inl rfl⟩

def emptyState : State where
  rows _ := none
  ids := []
  dataSets _ := true
  sends := []
  waits _ := none
  contracts _ := liveContracts 0
  blockNumber := 40

theorem emptyState_fresh : Fresh emptyState := ⟨fun _ => rfl, rfl, rfl, fun _ => rfl⟩

/-- The provider terminates the service of data set 7 and the transaction is confirmed. -/
def terminationConfirmed : List Action :=
  [.request 7 false, .row 7 (.scheduleTerminate 1), .row 7 (.doTerminate 1 100),
    .setContracts 7 (liveContracts 50), .confirm 100 true]

/-- The transaction is then reorged out, and the reorg check marks its wait. -/
def terminationReorged : List Action :=
  terminationConfirmed ++ [.setContracts 7 (liveContracts 0), .markWaitReorged 100]

def sentRow : Row := { afterTerminateService := true, terminateTxHash := some 100 }

theorem readable_of_live {endEpoch : Nat} (contracts : st.contracts =
      Function.update (fun _ => liveContracts 0) 7 (liveContracts endEpoch))
    (id : DataSetId) : Readable (st.contracts id) := by
  rw [contracts]
  by_cases same : id = 7
  · subst same
    simpa using liveContracts_readable
  · simpa [same] using liveContracts_readable

/-- In every reachable state the pipeline can move on exactly the rows that are not stranded, and a
data set is deleted only in a step that has read the finalized state. -/
theorem pipeline_open_iff {start st : State} (fresh : Fresh start) {actions : List Action}
    (ran : run State.step start actions = some st) :
    (∀ id row, st.rows id = some row →
      (∀ other found, st.rows other = some found → Readable (st.contracts other)) →
        (Movable st id row ↔ ¬ Stranded st id row)) ∧
    (∀ action next id, st.step action = some next → st.dataSets id = true →
      next.dataSets id = false →
        ∃ state, readDataSetCleanupState (st.contracts id).verifier = .ok state ∧
          state.finalized = true) := by
  have sound := sound_of_run fresh ran
  constructor
  · intro id row known readable
    constructor
    · intro movable stranded
      exact stranded.not_movable sound known movable
    · exact movable_of_not_stranded sound known readable
  · intro action next id stepped present gone
    exact step_drops sound stepped present gone

theorem exists_reached {actions : List Action} {wait : Wait} {contracts : DataSetId → Contracts}
    (reached : (run State.step emptyState actions).map (fun st =>
      (st.rows 7, st.waits 100, st.contracts)) = some (some sentRow, some wait, contracts)) :
    ∃ st, run State.step emptyState actions = some st ∧ st.rows 7 = some sentRow ∧
      st.waits 100 = some wait ∧ st.contracts = contracts := by
  obtain ⟨st, ran, same⟩ := Option.map_eq_some_iff.mp reached
  simp only [Prod.mk.injEq] at same
  exact ⟨st, ran, same⟩

theorem pipeline_open_confirmed : ∃ st, run State.step emptyState terminationConfirmed = some st ∧
    st.rows 7 = some sentRow ∧ ¬ Stranded st 7 sentRow ∧ Movable st 7 sentRow := by
  obtain ⟨st, ran, rows, waits, contracts⟩ := exists_reached
    (rfl : (run State.step emptyState terminationConfirmed).map _ = some (_,
      some { txStatus := .confirmed, txSuccess := some true },
      Function.update (fun _ => liveContracts 0) 7 (liveContracts 50)))
  have free : ¬ Stranded st 7 sentRow := by
    have awaited : sentRow.awaitsTermination = some 100 := rfl
    have noDelete : sentRow.awaitsDelete = none := rfl
    have ended : (st.contracts 7).pdpEndEpoch = .ok 50 := by
      rw [contracts]
      rfl
    intro stranded
    cases stranded <;> grind [Wait.outcome, outcome_true]
  have opens := (pipeline_open_iff emptyState_fresh ran).1 7 sentRow rows
    (fun other _ _ => readable_of_live contracts other)
  exact ⟨st, ran, rows, free, opens.mpr free⟩

/-- Nobody selects the row of a reorged termination any more. -/
theorem reorged_termination_dead_end : ∃ st, Fresh emptyState ∧
    run State.step emptyState terminationReorged = some st ∧ st.rows 7 = some sentRow ∧
    (∀ id, Readable (st.contracts id)) ∧ ¬ Movable st 7 sentRow := by
  obtain ⟨st, ran, rows, waits, contracts⟩ := exists_reached
    (rfl : (run State.step emptyState terminationReorged).map _ = some (_,
      some { txStatus := .reorged },
      Function.update (Function.update (fun _ => liveContracts 0) 7 (liveContracts 50)) 7
        (liveContracts 0)))
  rw [Function.update_idem] at contracts
  have stranded : Stranded st 7 sentRow := .reorgedTermination rfl waits rfl
  refine ⟨st, emptyState_fresh, ran, rows, readable_of_live contracts, ?_⟩
  exact stranded.not_movable (sound_of_run emptyState_fresh ran) rows

/-- In every reachable state no stage of a row has begun before the service has ended and deletion
is allowed, and the cleanup waits for no deletion. -/
theorem deletion_in_order {start st : State} (fresh : Fresh start) {actions : List Action}
    (ran : run State.step start actions = some st) :
    (st.sends.map Prod.fst).Nodup ∧ ∀ id row, st.rows id = some row →
      (row.deleteDataSetTaskId ≠ none ∨ row.deleteTxHash ≠ none ∨ row.cleanupPiecesTaskId ≠ none ∨
        row.cleanupPiecesTxHash ≠ none → row.afterTerminateService = true ∧
          row.serviceTerminationEpoch ≠ none ∧ row.deletionAllowed = true) ∧
      (row.cleanupPiecesTaskId ≠ none ∨ row.cleanupPiecesTxHash ≠ none →
        row.deleteDataSetTaskId = none ∧ row.deleteTxHash = none) ∧
      (row.cleanupPiecesTaskId = none ∨ row.cleanupPiecesTxHash = none) := by
  have sound := sound_of_run fresh ran
  refine ⟨sound.messages.sentOnce, fun id row known => ?_⟩
  obtain ⟨-, -, -, ended, deleting, deleted, deleteTx, cleaning, cleanupTx⟩ :=
    sound.valid id row known
  grind

def deletionScheduled : List Action :=
  terminationConfirmed ++ [.watchTerminations [7], .setContracts 7 { liveContracts 50 with
    rail := .ok ⟨50, 50⟩ }, .row 7 .settleRail, .setBlockNumber 60, .row 7 (.scheduleDelete 2)]

theorem deletion_in_order_scheduled : ∃ st row, run State.step emptyState deletionScheduled =
    some st ∧ st.rows 7 = some row ∧ row.deleteDataSetTaskId = some 2 ∧ row.deletionAllowed = true :=
  ⟨_, _, rfl, rfl, rfl, (((deletion_in_order emptyState_fresh
    (rfl : run _ _ deletionScheduled = _)).2 7 _ rfl).1 (.inl (by decide))).2.2⟩

end Curio.Pdp.Deletion
