import Curio.Pdp.DeletionInvariant

/-! What one pass of a watcher makes of a pending row, by the rows that it takes before it. -/

namespace Curio.Pdp.Deletion

open List
open ReorgCheck (Hash)

variable {st : State} {id : DataSetId} {row : Row} {outcome : Outcome} {success : Bool}
  {front rest ids : List DataSetId} {act : Contracts → Row → Option Outcome}

theorem passRows_reaches (once : (front ++ id :: rest).Nodup) (known : st.rows id = some row)
    (made : act (st.contracts id) row = some outcome) :
    (passRows act (front ++ id :: rest) st).1.rows id =
      if (passRows act front st).2 then outcome.row else some row := by
  induction front generalizing st with
  | nil =>
    have alone := (nodup_cons.mp once).1
    rw [nil_append, passRows_applied known made, (passRows_other act alone _).1, apply_rows_same]
    rfl
  | cons head front ih =>
    obtain ⟨alone, once⟩ := nodup_cons.mp once
    have apart : id ≠ head := by grind
    rw [cons_append]
    cases found : st.rows head with
    | none =>
      rw [passRows_absent found, passRows_absent found]
      exact ih once known made
    | some other =>
      cases acted : act (st.contracts head) other with
      | none =>
        rw [passRows_error found acted, passRows_error found acted]
        exact known
      | some first =>
        rw [passRows_applied found acted, passRows_applied found acted]
        exact ih once (by rwa [apply_rows_other _ _ _ apart]) made

inductive Watcher where
  | terminations
  | deletes
  | cleanups
  deriving DecidableEq

namespace Watcher

def awaits : Watcher → Row → Option Hash
  | .terminations => Row.awaitsTermination
  | .deletes => Row.awaitsDelete
  | .cleanups => Row.awaitsCleanup

/-- What the loop over the successes, and the one over the failures, do to a row. -/
def effect : Watcher → Bool → Contracts → Row → Option Outcome
  | .terminations, true => successfulTermination
  | .terminations, false => failedTermination
  | .deletes, true => successfulDelete
  | .deletes, false => failedDelete
  | .cleanups, true => successfulCleanup
  | .cleanups, false => failedCleanup

def pass : Watcher → List DataSetId → State → State
  | .terminations => processTerminations
  | .deletes => processPendingDeletes
  | .cleanups => processPendingCleanupPieces

variable (w : Watcher)

/-- No row of the list stops its loop: the state of each can be read and is the expected one. -/
def Passable (success : Bool) (st : State) (ids : List DataSetId) : Prop :=
  ∀ id ∈ ids, st.ended w.awaits success id = true → ∀ row, st.rows id = some row →
    (w.effect success (st.contracts id) row).isSome

/-- The pass gets to a row behind the given ones: an error among the successful terminations also
keeps it from all failed ones. -/
def Reaches (success : Bool) (st : State) (front order : List DataSetId) : Prop :=
  w.Passable success st front ∧ (w = .terminations → success = false → w.Passable true st order)

theorem quiet : Quiet (w.effect true) := by
  cases w
  · exact quiet_successfulTermination
  · exact quiet_successfulDelete
  · exact quiet_reconcileCleanup

theorem pass_eq (order : List DataSetId) :
    w.pass order st =
      if w = .terminations ∧
        (passRows (w.effect true) (order.filter (st.ended w.awaits true)) st).2 = false then
        (passRows (w.effect true) (order.filter (st.ended w.awaits true)) st).1
      else processBoth (w.effect true) (w.effect false) w.awaits order st := by
  cases w with
  | terminations =>
    rw [pass, processTerminations_eq]
    grind [effect, awaits]
  | deletes | cleanups => rfl

theorem passRows_passable (success : Bool) (st : State) {next : State} (once : ids.Nodup)
    (reads : next.contracts = st.contracts)
    (same : ∀ id, st.ended w.awaits success id = true → next.rows id = st.rows id) :
    (passRows (w.effect success) (ids.filter (st.ended w.awaits success)) next).2 = true ↔
      w.Passable success st ids := by
  rw [passRows_ok (once.filter _), reads]
  constructor
  · intro passes id member ended row known
    exact passes id (mem_filter.mpr ⟨member, ended⟩) row ((same id ended).trans known)
  · intro passes id member row known
    obtain ⟨member, ended⟩ := mem_filter.mp member
    exact passes id member ended row ((same id ended).symm.trans known)

variable {w} (once : (front ++ id :: rest).Nodup) (known : st.rows id = some row)
  (ended : st.ended w.awaits success id = true)
  (made : w.effect success (st.contracts id) row = some outcome)
include once known ended made

theorem pass_row : w.Reaches success st front (front ++ id :: rest) ∧
      (w.pass (front ++ id :: rest) st).rows id = outcome.row ∨
    ¬ w.Reaches success st front (front ++ id :: rest) ∧
      (w.pass (front ++ id :: rest) st).rows id = some row := by
  have frontOnce : front.Nodup := (nodup_append.mp once).1
  have here : (front ++ id :: rest).filter (st.ended w.awaits success) =
      front.filter (st.ended w.awaits success) ++ id :: rest.filter (st.ended w.awaits success) := by
    rw [filter_append, filter_cons_of_pos ended]
  have hereOnce := here ▸ once.filter (st.ended w.awaits success)
  have exclusive (other : DataSetId) (isEnded : st.ended w.awaits success other = true) :
      other ∉ (front ++ id :: rest).filter (st.ended w.awaits !success) := by
    grind [State.ended]
  rw [pass_eq]
  generalize whole : front ++ id :: rest = order at once here exclusive ⊢
  cases success with
  | true =>
    -- the second loop is over other rows
    have only : (processBoth (w.effect true) (w.effect false) w.awaits order st).rows id =
        (passRows (w.effect true) (order.filter (st.ended w.awaits true)) st).1.rows id :=
      (passRows_other _ (exclusive id ended) _).1
    have reached := w.passRows_passable true st frontOnce rfl (fun _ _ => rfl)
    rw [apply_ite (State.rows · id), only, here, passRows_reaches hereOnce known made]
    grind [Reaches]
  | false =>
    -- the first loop is over other rows
    rw [Bool.not_false] at exclusive
    have untouched (other : DataSetId) (isEnded : st.ended w.awaits false other = true) :=
      (passRows_other (w.effect true) (exclusive other isEnded) st).1
    have reads := (passRows_frame w.quiet (order.filter (st.ended w.awaits true)) st).contracts
    have all := w.passRows_passable true st once rfl (fun _ _ => rfl)
    have reached := w.passRows_passable false st frontOnce reads untouched
    have row := (untouched id ended).trans known
    split_ifs with stops
    · grind [Reaches]
    · rw [processBoth, here, passRows_reaches hereOnce row (reads ▸ made)]
      grind [Reaches]

theorem pass_reached (reaches : w.Reaches success st front (front ++ id :: rest)) :
    (w.pass (front ++ id :: rest) st).rows id = outcome.row := by
  rcases pass_row once known ended made with reached | blocked
  · exact reached.2
  · exact absurd reaches blocked.1

/-- A row is moved on exactly where the pass gets to it. -/
theorem pass_moves_iff : (w.pass (front ++ id :: rest) st).rows id = outcome.row ↔
    w.Reaches success st front (front ++ id :: rest) := by
  have moves : outcome.row ≠ some row := by
    obtain ⟨hash, wait, awaited, -, -⟩ := (ended_iff known).mp ended
    cases w <;> cases success <;> simp only [effect, awaits] at made awaited <;>
      grind [awaitsTermination_eq_some, awaitsDelete_eq_some, awaitsCleanup_eq_some]
  have cases := pass_row once known ended made
  grind

omit once known ended made

def deletedRow (hash : Hash) : Row :=
  { serviceTerminationEpoch := some 5, afterDeleteDataSet := true, deleteTxHash := some hash }

/-- Two confirmed deletions; the second data set is finalized. -/
def twoDeletes (dataSetLive : Except ReadError Bool) : State where
  rows id := if id = 1 then deletedRow 11 else if id = 2 then deletedRow 12 else none
  ids := [1, 2]
  dataSets _ := true
  sends := []
  waits _ := some { txStatus := .confirmed, txSuccess := some true }
  contracts id :=
    { pdpEndEpoch := .ok 5
      supportsClientTermination := .ok true
      verifier := ⟨if id = 1 then dataSetLive else .error .notFound, .error .notFound, .ok 0⟩
      rail := .error .inactiveOrSettled }
  blockNumber := 9

theorem pass_moves_second :
    (deletes.pass [1, 2] (twoDeletes (.error .notFound))).rows 2 = none := by
  refine (@pass_moves_iff (twoDeletes (.error .notFound)) 2 (deletedRow 12) cleanupFinalizedDataSet
    true [1] [] deletes (by decide) rfl rfl rfl).mpr ⟨?_, nofun⟩
  intro id member _ row known
  cases mem_singleton.mp member
  rfl

/-- The first data set cannot be read: the second one stays. -/
theorem unread_row_blocks :
    (deletes.pass [1, 2] (twoDeletes (.error (.failed "timeout")))).rows 2 = deletedRow 12 := rfl

end Watcher

end Curio.Pdp.Deletion
