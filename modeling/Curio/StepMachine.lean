import Mathlib.Tactic

/-! Runs of a machine that is given by a partial step function: what every step keeps, every run
keeps, and a measure that every working step lowers bounds the work of a run. -/

namespace StepMachine

variable {σ α : Type*} (step : σ → α → Option σ) {state final : σ} {action : α}
  {rest actions : List α} {allowed : σ → α → Prop} {invariant : σ → Prop} {measure : σ → Nat}

def run : σ → List α → Option σ
  | state, [] => some state
  | state, action :: rest => (step state action).bind (fun next => run next rest)

theorem run_cons :
    run step state (action :: rest) = some final ↔
      ∃ next, step state action = some next ∧ run step next rest = some final := by
  simp [run, Option.bind_eq_some_iff]

/-- Every action of a run is allowed in the state it is taken in. -/
def RunsUnder (allowed : σ → α → Prop) : σ → List α → Prop
  | _, [] => True
  | state, action :: rest =>
    allowed state action ∧ ∀ next, step state action = some next → RunsUnder allowed next rest

instance RunsUnder.decidable {allowed : σ → α → Prop}
    [∀ state action, Decidable (allowed state action)] :
    (state : σ) → (actions : List α) → Decidable (RunsUnder step allowed state actions)
  | _, [] => isTrue trivial
  | state, action :: rest =>
    match stepped : step state action with
    | none =>
      decidable_of_iff (allowed state action)
        ⟨fun here => ⟨here, fun _ some => by simp [stepped] at some⟩, And.left⟩
    | some next =>
      have : Decidable (RunsUnder step allowed next rest) := RunsUnder.decidable next rest
      decidable_of_iff (allowed state action ∧ RunsUnder step allowed next rest)
        ⟨fun both => ⟨both.1, fun _ some => by
          cases stepped.symm.trans some
          exact both.2⟩, fun both => ⟨both.1, both.2 next stepped⟩⟩

variable {step}

theorem RunsUnder.of_forall (each : ∀ action ∈ actions, ∀ state, allowed state action) (state : σ) :
    RunsUnder step allowed state actions := by
  induction actions generalizing state with
  | nil => exact trivial
  | cons action rest ih =>
    refine ⟨each action List.mem_cons_self state, ?_⟩
    grind

theorem RunsUnder.of_step {next : σ} (here : allowed state action)
    (stepped : step state action = some next) (later : RunsUnder step allowed next rest) :
    RunsUnder step allowed state (action :: rest) := by
  refine ⟨here, fun other same => ?_⟩
  grind

theorem run_invariant
    (kept : ∀ state action next, invariant state → allowed state action →
      step state action = some next → invariant next)
    {state final : σ} {actions : List α} (initial : invariant state)
    (under : RunsUnder step allowed state actions) (ran : run step state actions = some final) :
    invariant final := by
  induction actions generalizing state with
  | nil =>
    cases ran
    exact initial
  | cons action rest ih =>
    obtain ⟨next, stepped, tail⟩ := (run_cons step).mp ran
    exact ih (kept state action next initial under.1 stepped) (under.2 next stepped) tail

/-- What every step keeps, every run keeps. -/
theorem run_keeps
    (kept : ∀ state action next, invariant state → step state action = some next → invariant next)
    {state final : σ} {actions : List α} (initial : invariant state)
    (ran : run step state actions = some final) : invariant final := by
  have under : RunsUnder step (fun _ _ => True) state actions := .of_forall (fun _ _ _ => trivial) _
  exact run_invariant (fun state action next held _ => kept state action next held) initial under ran

/-- The measure rule: a run does no more work than its start has left. -/
theorem run_measure {work : α → Bool}
    (kept : ∀ state action next, invariant state → allowed state action →
      step state action = some next → invariant next)
    (lowers : ∀ state action next, invariant state → allowed state action →
      step state action = some next → measure next + (if work action then 1 else 0) ≤ measure state)
    {state final : σ} {actions : List α} (initial : invariant state)
    (under : RunsUnder step allowed state actions) (ran : run step state actions = some final) :
    measure final + actions.countP work ≤ measure state := by
  induction actions generalizing state with
  | nil =>
    cases ran
    exact Nat.le_refl _
  | cons action rest ih =>
    obtain ⟨next, stepped, tail⟩ := (run_cons step).mp ran
    have first := lowers state action next initial under.1 stepped
    have later := ih (kept state action next initial under.1 stepped) (under.2 next stepped) tail
    rw [List.countP_cons]
    omega

/-- Where every unfinished state has a working step, some run finishes. -/
theorem exists_run {finished : σ → Prop} {good : α → Prop}
    (progress : ∀ state, invariant state → ¬ finished state → ∃ action next, good action ∧
      step state action = some next ∧ invariant next ∧ measure next < measure state)
    (state : σ) (initial : invariant state) :
    ∃ actions final, (∀ action ∈ actions, good action) ∧ run step state actions = some final ∧
      invariant final ∧ finished final := by
  generalize bound : measure state = fuel
  induction fuel using Nat.strong_induction_on generalizing state with
  | _ fuel ih =>
    by_cases done : finished state
    · exact ⟨[], state, by simp, rfl, initial, done⟩
    · obtain ⟨action, next, allowed, stepped, kept, lower⟩ := progress state initial done
      obtain ⟨actions, final, goods, ran, holds, ends⟩ := ih _ (bound ▸ lower) next kept rfl
      refine ⟨action :: actions, final, ?_, (run_cons step).mpr ⟨next, stepped, ran⟩, holds, ends⟩
      grind

end StepMachine
