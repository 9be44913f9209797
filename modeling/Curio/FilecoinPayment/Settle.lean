import Curio.GoRuntime

/-! The settlement of FWSS payment rails: `SettleLockupPeriod` of `lib/filecoinpayment/utils.go` for
one rail, with the targets of `pdp/contract/FWSS/settle_resolver.go`. The fields of a view are set;
the end epoch of an active rail is zero. -/

namespace Curio.FilecoinPayment

open GoRuntime

structure PaymentsRailView where
  (settledUpTo lockupPeriod endEpoch : Int)

/-- Whether the service validates the rail; the resolver refuses a period of zero. -/
structure Proving where
  validated : Bool
  (activation period : Int)
  positive : 0 < period

section

variable (rail : PaymentsRailView) (p : Proving) (current activation period target : Int)

def isTerminatedRailFinalizationTarget : Bool :=
  0 < rail.endEpoch ∧ rail.settledUpTo = rail.endEpoch ∧ target = rail.endEpoch

def activeRailSettlementDue : Bool :=
  let gracedLockup := rail.lockupPeriod - 2880
  gracedLockup ≤ 0 ∨ rail.settledUpTo + min (2880 * 7) gracedLockup < current

def railNeedsSettlement : Bool :=
  if 0 < rail.endEpoch then rail.settledUpTo ≤ rail.endEpoch
  else activeRailSettlementDue rail current

/-- The target, if it advances the rail or finalizes it. -/
def useful : Option Int :=
  if target ≤ rail.settledUpTo ∧ ¬ isTerminatedRailFinalizationTarget rail target then none
  else some target

/-- The current epoch or the end of the rail, whichever is earlier. -/
def latest : Int :=
  if 0 < rail.endEpoch ∧ rail.endEpoch < current then rail.endEpoch else current

def standardSettleTarget : Option Int := useful rail (latest rail current)

def shouldSkipFWSSActivationTerminationBoundary : Bool :=
  0 < activation ∧ 0 < rail.endEpoch ∧ rail.endEpoch = activation ∧
    rail.settledUpTo < rail.endEpoch

def closedTarget : Int :=
  if activation < current then activation + (current - activation - 1) / period * period
  else activation

def pdpSettleTarget : Option Int := do
  let target ← standardSettleTarget rail current
  if shouldSkipFWSSActivationTerminationBoundary rail activation then none
  else if 0 < activation then
    if period ≤ 0 ∨ current < activation then none
    else
      let target := min target (closedTarget current activation period)
      if target < activation then
        if 0 < rail.endEpoch then some target else none
      else useful rail target
  else useful rail target

/-- The function that `SettleTargetResolver` returns, for a rail with or without a validator. -/
def settleTarget : Option Int :=
  if p.validated then pdpSettleTarget rail current p.activation p.period
  else standardSettleTarget rail current

/-- The epochs that may be settled. -/
structure Allowed : Prop where
  past : target ≤ current
  ended : 0 < rail.endEpoch → target ≤ rail.endEpoch
  proven : p.validated = true → 0 < p.activation → p.activation ≤ target →
    ∃ k : Nat, p.activation + k * p.period < current ∧ target ≤ p.activation + k * p.period

/-- The target before it is known whether it is of use. -/
def limit : Int :=
  if p.validated = true ∧ 0 < p.activation then
    min (latest rail current) (closedTarget current p.activation p.period)
  else latest rail current

/-- A pass over the rail; what is sent succeeds at its target. -/
def settlePass : PaymentsRailView :=
  if railNeedsSettlement rail current then
    let target := (settleTarget rail p current).bind (useful rail)
    { rail with settledUpTo := target.getD rail.settledUpTo }
  else rail

end

/-- The result and the number of estimates. -/
def calculateSettleUpTo (estimateGas : Int → Option String) (isGasEstimateOutOfGas : String → Bool)
    (settledUpTo next : Int) : Except String Int × Nat :=
  match estimateGas next with
  | none => (.ok (int64 next), 1)
  | some err =>
    let half := settledUpTo + (next - settledUpTo) / 2
    if isGasEstimateOutOfGas err ∧ settledUpTo < half then
      let (result, estimates) :=
        calculateSettleUpTo estimateGas isGasEstimateOutOfGas settledUpTo half
      (result, estimates + 1)
    else (.error ("failed to estimate gas: " ++ err), 1)
termination_by (next - settledUpTo).toNat

variable {rail : PaymentsRailView} {p : Proving} {current target : Int}

theorem useful_eq_none : useful rail target = none ↔ target ≤ rail.settledUpTo ∧
    (0 < rail.endEpoch → rail.settledUpTo = rail.endEpoch → target ≠ rail.endEpoch) := by
  simp [useful, isTerminatedRailFinalizationTarget]

theorem closedTarget_near (reached : p.activation ≤ current) :
    p.activation ≤ closedTarget current p.activation p.period ∧
      current ≤ closedTarget current p.activation p.period + p.period := by
  have whole := Int.emod_add_mul_ediv (current - p.activation - 1) p.period
  have high := Int.emod_lt_of_pos (current - p.activation - 1) p.positive
  have positive := p.positive
  rw [closedTarget]
  split_ifs with later
  · have nonneg : 0 ≤ (current - p.activation - 1) / p.period * p.period :=
      Int.mul_nonneg (Int.ediv_nonneg (by omega) p.positive.le) p.positive.le
    rw [Int.mul_comm] at whole
    omega
  · omega

theorem closedTarget_last (later : p.activation < current) :
    ∃ k : Nat, closedTarget current p.activation p.period = p.activation + k * p.period ∧
      p.activation + k * p.period < current ∧
      ∀ other : Nat, p.activation + other * p.period < current → other * p.period ≤ k * p.period := by
  have nonneg := Int.ediv_nonneg (by omega : 0 ≤ current - p.activation - 1) p.positive.le
  have below := Int.ediv_mul_le (current - p.activation - 1) p.positive.ne'
  refine ⟨((current - p.activation - 1) / p.period).toNat, ?_⟩
  rw [closedTarget, if_pos later, Int.toNat_of_nonneg nonneg]
  refine ⟨rfl, by omega, fun other before => ?_⟩
  apply Int.mul_le_mul_of_nonneg_right _ p.positive.le
  exact (Int.le_ediv_iff_mul_le p.positive).mpr (by omega)

theorem settleTarget_eq
    (reached : p.validated = true → 0 < p.activation → p.activation ≤ current) :
    settleTarget rail p current = if p.validated = true ∧
        shouldSkipFWSSActivationTerminationBoundary rail p.activation then none
      else useful rail (limit rail p current) := by
  unfold settleTarget pdpSettleTarget standardSettleTarget limit
  by_cases active : p.validated = true ∧ 0 < p.activation
  · obtain ⟨proving, started⟩ := active
    have positive := p.positive
    have running : ¬ (p.period ≤ 0 ∨ current < p.activation) := by grind
    obtain ⟨first, -⟩ := closedTarget_near (reached proving started)
    simp only [proving, started, running, true_and, and_self, if_true, if_false]
    cases usable : useful rail (latest rail current) with
    | none =>
      have idle : useful rail
          (min (latest rail current) (closedTarget current p.activation p.period)) = none := by
        rw [useful_eq_none] at usable ⊢
        grind [latest]
      rw [idle, ite_self]
      rfl
    | some target =>
      have same : target = latest rail current := by grind [useful]
      change (if _ then none else _) = _
      split_ifs with skipped early terminated
      · rfl
      · rw [same, min_eq_left (by omega), usable, same]
      · grind [latest]
      · rw [same]
  · grind [useful, shouldSkipFWSSActivationTerminationBoundary]

theorem limit_upper (reached : p.validated = true → 0 < p.activation → p.activation ≤ current) :
    limit rail p current ∈ upperBounds {e | Allowed rail p current e} := by
  rintro e ⟨past, ended, proven⟩
  unfold limit
  split_ifs with active
  · obtain ⟨validated, started⟩ := active
    have first := (closedTarget_near (reached validated started)).1
    refine le_min (by grind [latest]) ?_
    by_cases early : e < p.activation
    · omega
    obtain ⟨k, before, bound⟩ := proven validated started (not_lt.mp early)
    have nonneg : 0 ≤ (k : Int) * p.period := mul_nonneg (Int.natCast_nonneg k) p.positive.le
    obtain ⟨last, same, -, greatest⟩ := closedTarget_last (p := p) (by omega : _ < current)
    have := greatest k before
    omega
  · grind [latest]

theorem limit_allowed (later : p.validated = true → 0 < p.activation → p.activation < current) :
    Allowed rail p current (limit rail p current) := by
  unfold limit
  split_ifs with active
  · obtain ⟨k, same, before, -⟩ := closedTarget_last (later active.1 active.2)
    refine ⟨by grind [latest], by grind [latest], fun _ _ _ => ?_⟩
    exact ⟨k, before, same ▸ min_le_right ..⟩
  · exact ⟨by grind [latest], by grind [latest], by grind⟩

theorem limit_ended (ending : 0 < rail.endEpoch) : limit rail p current ≤ rail.endEpoch := by
  grind [limit, latest]

theorem settle_target_greatest (rail : PaymentsRailView) (p : Proving) (current : Int)
    (reached : p.validated = true → 0 < p.activation → p.activation ≤ current) :
    (∀ target, settleTarget rail p current = some target →
      (p.validated = true → 0 < p.activation → p.activation ≠ current) →
      IsGreatest {e | Allowed rail p current e} target ∧ useful rail target = some target) ∧
    (settleTarget rail p current = none →
      (p.validated = true → ¬ shouldSkipFWSSActivationTerminationBoundary rail p.activation) →
      ∀ e, Allowed rail p current e → useful rail e = none) ∧
    ∀ estimateGas outOfGas settledUpTo target upTo, 0 ≤ settledUpTo → 0 ≤ target →
      target < 2 ^ 63 →
      (calculateSettleUpTo estimateGas outOfGas settledUpTo target).2 ≤
        (target - settledUpTo).toNat.log2 + 1 ∧
      ((calculateSettleUpTo estimateGas outOfGas settledUpTo target).1 = .ok upTo →
        settledUpTo < upTo ∧ upTo ≤ target ∨ upTo = target) := by
  rw [settleTarget_eq reached]
  refine ⟨?_, ?_, ?_⟩
  · intro target found other
    obtain rfl : target = limit rail p current := by grind [useful]
    refine ⟨⟨limit_allowed fun proving started => ?_, limit_upper reached⟩, by grind⟩
    exact lt_of_le_of_ne (reached proving started) (other proving started)
  · intro missing regular e allowed
    have below := limit_upper reached allowed
    have ended := @limit_ended rail p current
    rw [if_neg (by grind), useful_eq_none] at missing
    rw [useful_eq_none]
    omega
  · intro estimateGas outOfGas settledUpTo target upTo low nonneg high
    fun_induction calculateSettleUpTo estimateGas outOfGas settledUpTo target with
    | case1 next done =>
      refine ⟨by omega, fun returned => .inr ?_⟩
      cases returned
      rw [int64, Int.bmod_def]
      split <;> omega
    | case2 next err failed half again result estimates called ih =>
      obtain ⟨few, ends⟩ := ih (by omega) (by omega)
      rw [called] at few ends
      have halves : (half - settledUpTo).toNat = (next - settledUpTo).toNat / 2 := by omega
      have deeper : (next - settledUpTo).toNat.log2 = (half - settledUpTo).toNat.log2 + 1 := by
        rw [halves, Nat.log2_def, if_pos (by omega)]
      exact ⟨by omega, fun returned => by grind⟩
    | case3 next err failed half stops => exact ⟨by omega, by simp⟩

theorem settle_target_third_period :
    settleTarget ⟨5, 9000, 0⟩ ⟨true, 10, 3, by decide⟩ 17 = some 16 ∧
      IsGreatest {e | Allowed ⟨5, 9000, 0⟩ ⟨true, 10, 3, by decide⟩ 17 e} 16 :=
  ⟨by decide, ((settle_target_greatest _ _ _ (by decide)).1 16 (by decide) (by decide)).1⟩

/-- At the activation itself no deadline has passed, but the target is the activation. -/
theorem settle_target_at_activation :
    settleTarget ⟨5, 9000, 0⟩ ⟨true, 10, 3, by decide⟩ 10 = some 10 ∧
      ¬ Allowed ⟨5, 9000, 0⟩ ⟨true, 10, 3, by decide⟩ 10 10 := by
  refine ⟨by decide, fun allowed => ?_⟩
  obtain ⟨k, before, -⟩ := allowed.proven rfl (by decide) le_rfl
  change (10 : Int) + k * 3 < 10 at before
  omega

/-- An active rail that is due is settled up to one period behind the pass. -/
theorem settlePass_due (active : rail.endEpoch = 0)
    (activated : p.validated = true → p.activation ≤ current)
    (due : railNeedsSettlement rail current = true) :
    current - p.period ≤ (settlePass rail p current).settledUpTo := by
  have high : current - p.period ≤ limit rail p current := by
    have positive := p.positive
    unfold limit
    split_ifs with proving
    · have near := closedTarget_near (activated proving.1)
      grind [latest]
    · grind [latest]
  rw [settlePass, if_pos due, settleTarget_eq fun proving _ => activated proving, if_neg (by
    simp [shouldSkipFWSSActivationTerminationBoundary, active])]
  grind [useful]

theorem settlePasses_eq (passes : List Int) : ∃ upTo,
    passes.foldl (settlePass · p ·) rail = { rail with settledUpTo := upTo } := by
  induction passes generalizing rail with
  | nil => exact ⟨_, rfl⟩
  | cons pass later ih =>
    obtain ⟨upTo, same⟩ := @ih (settlePass rail p pass)
    refine ⟨upTo, same.trans ?_⟩
    unfold settlePass
    split <;> rfl

/-- Heads up to `P` epochs behind the last pass, and with it up to the next one, are covered. -/
theorem lockup_kept (rail before : PaymentsRailView) (active : rail.endEpoch = 0) (p : Proving)
    (P : Int) (day : P + p.period ≤ 2880) (lockup : P + p.period ≤ rail.lockupPeriod)
    (earlier : List Int) (passed : earlier.foldl (settlePass · p ·) rail = before) (last : Int)
    (activated : p.validated = true → p.activation ≤ last) (head : Int) (near : head ≤ last + P) :
    head ≤ (settlePass before p last).settledUpTo + rail.lockupPeriod ∧
      (railNeedsSettlement before last = false →
        head ≤ before.settledUpTo + rail.lockupPeriod) := by
  obtain ⟨upTo, rfl⟩ := passed ▸ settlePasses_eq earlier
  have positive := p.positive
  have waits (idle : railNeedsSettlement { rail with settledUpTo := upTo } last = false) :
      head ≤ upTo + rail.lockupPeriod := by
    simp only [railNeedsSettlement, active, activeRailSettlementDue] at idle
    grind
  refine ⟨?_, waits⟩
  cases due : railNeedsSettlement { rail with settledUpTo := upTo } last with
  | false => simpa [settlePass, due] using waits due
  | true =>
    have settled := @settlePass_due { rail with settledUpTo := upTo } p last active activated due
    omega

/-- The second of three passes is not due. -/
theorem lockup_kept_second_pass :
    let pass := (settlePass · ⟨true, 10, 3, by decide⟩ ·)
    let first := pass ⟨5, 5760, 0⟩ 3000
    first.settledUpTo = 2998 ∧ railNeedsSettlement first 5000 = false ∧
      7800 ≤ first.settledUpTo + 5760 ∧
      (pass (pass first 5000) 6000).settledUpTo = 5998 ∧
      8800 ≤ (pass (pass first 5000) 6000).settledUpTo + 5760 := by
  have kept (before : PaymentsRailView) := lockup_kept ⟨5, 5760, 0⟩ before rfl
    ⟨true, 10, 3, by decide⟩ 2800 (by decide) (by decide)
  refine ⟨by decide, by decide, ?_, by decide, ?_⟩
  · exact (kept _ [3000] rfl 5000 (by decide) 7800 (by decide)).2 (by decide)
  · exact (kept _ [3000, 5000] rfl 6000 (by decide) 8800 (by decide)).1

end Curio.FilecoinPayment
