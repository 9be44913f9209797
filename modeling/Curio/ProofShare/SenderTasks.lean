import Curio.StepMachine

/-! The background senders of `tasks/proofshare/task_client_send.go`: the rows of
`proofshare_client_sender` and the tasks that the rounds of `Adder` attach to them. -/

namespace Curio.ProofShare.SenderTasks

open StepMachine

structure Row where
  walletID : Int
  taskID : Option Nat
  deriving DecidableEq

structure State where
  rows : List Row := []
  tasks : List Nat := []
  nextID : Nat := 1

namespace State

variable (st : State) (id : Nat)

/-- The insertion of `TaskClientUpload`, on conflict nothing. -/
def upload (walletID : Int) : State :=
  if ∃ row ∈ st.rows, row.walletID = walletID then st
  else { st with rows := ⟨walletID, none⟩ :: st.rows }

/-- One round of `Adder`: the new task is committed where a row was updated. -/
def add : State :=
  if ∃ row ∈ st.rows, row.taskID = none then
    { rows := st.rows.map fun row =>
        if row.taskID = none then { row with taskID := some st.nextID } else row
      tasks := st.nextID :: st.tasks
      nextID := st.nextID + 1 }
  else { st with nextID := st.nextID + 1 }

/-- The engine deletes a task, and the foreign key sets the rows to null. -/
def delete : State :=
  { st with
    rows := st.rows.map fun row =>
      if row.taskID = some id then { row with taskID := none } else row
    tasks := st.tasks.filter (· ≠ id) }

/-- The wallet that `Do` sends for: the query has no order, `first` is the row that comes first. -/
def Do (first : Row) : Option Int :=
  if first ∈ st.rows ∧ first.taskID = some id then some first.walletID else none

end State

inductive Action where
  | upload (walletID : Int)
  | add
  | delete (id : Nat)

def State.step (st : State) : Action → Option State
  | .upload walletID => some (st.upload walletID)
  | .add => some st.add
  | .delete id => some (st.delete id)

/-- Every wallet with a task has one that is there and sends for this wallet, whenever it runs. -/
def State.Served (st : State) : Prop :=
  ∀ row ∈ st.rows, ∀ id, row.taskID = some id →
    id ∈ st.tasks ∧ ∀ first wallet, st.Do id first = some wallet → wallet = row.walletID

/-- A round of `Adder` finds at most one row without a task. -/
def OneNew (st : State) : Action → Prop
  | .add => ∀ row ∈ st.rows, ∀ other ∈ st.rows,
      row.taskID = none → other.taskID = none → row = other
  | _ => True

structure Sound (st : State) : Prop where
  tasks : ∀ row ∈ st.rows, ∀ id, row.taskID = some id → id ∈ st.tasks
  old : ∀ id ∈ st.tasks, id < st.nextID
  alone : ∀ row ∈ st.rows, ∀ other ∈ st.rows, ∀ id,
    row.taskID = some id → other.taskID = some id → row = other

theorem Sound.step {st next : State} {action : Action} (sound : Sound st) (new : OneNew st action)
    (stepped : st.step action = some next) : Sound next := by
  obtain ⟨tasks, old, alone⟩ := sound
  cases action with
  | upload walletID =>
    cases stepped
    unfold State.upload
    split <;> constructor <;> grind
  | add =>
    cases stepped
    unfold State.add
    split <;> constructor <;> grind [OneNew]
  | delete id =>
    cases stepped
    constructor <;> grind [State.delete]

theorem senders_served {actions : List Action} {st : State}
    (ran : run State.step {} actions = some st) (new : RunsUnder State.step OneNew {} actions) :
    st.Served := by
  have sound : Sound st :=
    run_invariant (fun _ _ _ => Sound.step) ⟨by simp, by simp, by simp⟩ new ran
  intro row member id attached
  refine ⟨sound.tasks row member id attached, ?_⟩
  intro first wallet served
  grind [State.Do, sound.alone row member first]

theorem senders_served_twice : ∃ st, run State.step {} [.upload 7, .add, .upload 8, .add] = some st ∧
    st.rows = [⟨8, some 2⟩, ⟨7, some 1⟩] ∧ st.Served := by
  have alone : RunsUnder State.step OneNew {} [.upload 7, .add, .upload 8, .add] :=
    .of_step trivial rfl (.of_step (by unfold OneNew; decide) rfl
      (.of_step trivial rfl (.of_step (by unfold OneNew; decide) rfl trivial)))
  exact ⟨_, rfl, rfl, senders_served rfl alone⟩

/-- Two wallets between two rounds: both get task 1, which sends for the one that comes first. -/
theorem wallets_share_task : ∃ st, run State.step {} [.upload 7, .upload 8, .add] = some st ∧
    st.rows = [⟨8, some 1⟩, ⟨7, some 1⟩] ∧ st.Do 1 ⟨8, some 1⟩ = some 8 ∧ ¬ st.Served := by
  refine ⟨_, rfl, rfl, rfl, fun served => ?_⟩
  have same := (served ⟨7, some 1⟩ (by decide) 1 rfl).2 ⟨8, some 1⟩ 8 rfl
  cases same

end Curio.ProofShare.SenderTasks
