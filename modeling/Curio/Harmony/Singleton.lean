import Curio.StepMachine

/-! Singleton tasks: the callback of `SingletonTaskAdder` (`harmony/harmonytask/singleton_task.go`)
in the transaction of `taskTypeHandler.AddTask`, for one task name and any number of nodes.

A statement sees what is committed when it starts. An upsert of the row waits for the transaction
that has written it, and then changes the row as it has become. -/

namespace Curio.Harmony.Singleton

open StepMachine List

abbrev TaskId := Nat

structure Row where
  taskId : Option TaskId
  lastRunTime : Int
  runNowRequest : Bool
  deriving DecidableEq

/-- The conditional upsert; `active` are the rows of `harmony_task` that its snapshot has. -/
def upsert (active : List TaskId) (taskId : TaskId) (now : Int) : Option Row → Row
  | none => ⟨some taskId, now, false⟩
  | some row =>
    { taskId := if row.taskId.all (fun id => id ∉ active) then some taskId else row.taskId
      lastRunTime := if row.taskId = some taskId then row.lastRunTime else now
      runNowRequest := false }

/-- Where a transaction of `AddTask` is, after its insert into `harmony_task`. -/
inductive Phase where
  | inserted
  | read (row : Option Row) (now : Int)
  | shouldRun (now : Int)
  | upserting (active : List TaskId) (now : Int)
  | written (row : Row) (now : Int)

/-- `seen` counts the adds that were committed when the row was read. -/
structure Tx where
  taskId : TaskId
  phase : Phase
  seen : Nat

structure Node where
  lastCall : Option Int := none
  runNowFlag : Bool := false
  tx : Option Tx := none

structure Start where
  time : Int
  requests : Nat

/-- `writer` is the node whose open transaction has written the row. -/
structure State where
  tasks : List TaskId
  row : Option Row
  writer : Option Nat
  nextId : TaskId
  nodes : Nat → Node
  starts : List Start
  requests : Nat

inductive Action where
  | call (node : Nat) (now : Int)
  | select (node : Nat) (now : Int)
  | check (node : Nat)
  | startUpsert (node : Nat)
  | lockRow (node : Nat)
  | commit (node : Nat)
  | rollback (node : Nat)
  | restart (node : Nat)
  | poll (node : Nat)
  | complete (id : TaskId)
  | requestRunNow

namespace State

def setNode (st : State) (node : Nat) (value : Node) : State :=
  { st with nodes := Function.update st.nodes node value }

def tx (st : State) (node : Nat) : Option Tx := (st.nodes node).tx

def setTx (st : State) (node : Nat) (tx : Option Tx) : State :=
  st.setNode node { st.nodes node with tx := tx }

def abort (st : State) (node : Nat) (value : Node) : State :=
  { st.setNode node value with writer := if st.writer = some node then none else st.writer }

variable (minInterval : Nat)

/-- Without a row the task should run; otherwise if it is not running, and is wanted or due. -/
def shouldRun (st : State) (now : Int) : Option Row → Bool
  | none => true
  | some row => row.taskId.all (fun id => id ∉ st.tasks) &&
      (row.runNowRequest || decide (row.lastRunTime + minInterval < now))

/-- One statement of a transaction that has got to the given phase. -/
def advance (st : State) (node : Nat) (tx : Tx) : Action → Option State
  | .select _ now => match tx.phase with
      | .inserted => some (st.setTx node
          (some { tx with phase := .read st.row now, seen := st.starts.length }))
      | _ => none
  | .check _ => match tx.phase with
      | .read row now => some (st.setTx node
          (if st.shouldRun minInterval now row then some { tx with phase := .shouldRun now }
          else none))
      | _ => none
  | .startUpsert _ => match tx.phase with
      | .shouldRun now => some (st.setTx node
          (some { tx with phase := .upserting (tx.taskId :: st.tasks) now }))
      | _ => none
  | .lockRow _ => match tx.phase with
      | .upserting active now =>
        if st.writer = none then
          some { st.setTx node
              (some { tx with phase := .written (upsert active tx.taskId now st.row) now }) with
            writer := some node }
        else none
      | _ => none
  -- one row is affected in any case, so the callback asks for the commit
  | .commit _ => match tx.phase with
      | .written row now => some { st.setTx node none with
          tasks := st.tasks ++ [tx.taskId]
          row := some row
          writer := none
          starts := ⟨now, st.requests⟩ :: st.starts }
      | _ => none
  | .rollback _ => some (st.abort node { st.nodes node with tx := none })
  | _ => none

def call (st : State) (node : Nat) (now : Int) : Option State :=
  let value := st.nodes node
  if value.tx.isSome then none
  else if value.runNowFlag = false ∧ value.lastCall.any (fun last => now - last < minInterval) then
    some st
  else
    some { st.setNode node ⟨some now, false, some ⟨st.nextId, .inserted, 0⟩⟩ with
      nextId := st.nextId + 1 }

def step (st : State) (action : Action) : Option State :=
  match action with
  | .call node now => st.call minInterval node now
  | .select node _ | .check node | .startUpsert node | .lockRow node | .commit node
  | .rollback node => (st.tx node).bind fun tx => st.advance minInterval node tx action
  | .restart node => some (st.abort node {})
  | .poll node => some (st.setNode node { st.nodes node with
      runNowFlag := (st.nodes node).runNowFlag || st.row.any Row.runNowRequest })
  -- the foreign key sets the column to null, which waits for a writer of the row
  | .complete id =>
    if id ∈ st.tasks ∧ (st.row.bind Row.taskId = some id → st.writer = none) then
      some { st with
        tasks := st.tasks.erase id
        row := st.row.map fun row =>
          if row.taskId = some id then { row with taskId := none } else row }
    else none
  | .requestRunNow => st.row.bind fun row =>
    if st.writer = none then
      some { st with row := some { row with runNowRequest := true }, requests := st.requests + 1 }
    else none

def initial : State := ⟨[], none, none, 1, fun _ => {}, [], 0⟩

end State

/-- An upsert goes on only if no add was committed since its transaction has read the row. -/
def Undisturbed (st : State) : Action → Bool
  | .lockRow node => (st.tx node).all fun tx => tx.seen = st.starts.length
  | _ => true

section Invariant

variable (minInterval : Nat)

/-- A request has come after the last add, or the interval since then is over. -/
def Due (st : State) (now : Int) : Prop :=
  ∀ last, st.starts.head? = some last → last.time + minInterval < now ∨ last.requests < st.requests

/-- What a transaction has found out, as long as it is undisturbed. -/
def Found (st : State) (node : Nat) (tx : Tx) : Prop :=
  match tx.phase with
  | .inserted => True
  | .read none _ => tx.seen = st.starts.length → st.row = none
  | .read (some read) _ => tx.seen = st.starts.length → ∃ row, st.row = some row ∧
      row.lastRunTime = read.lastRunTime ∧ (row.taskId = read.taskId ∨ row.taskId = none) ∧
      (read.runNowRequest = true → ∀ last, st.starts.head? = some last →
        last.requests < st.requests)
  | .shouldRun now => tx.seen = st.starts.length → st.tasks = [] ∧ Due minInterval st now
  | .upserting active now => tx.seen = st.starts.length →
      active = [tx.taskId] ∧ st.tasks = [] ∧ Due minInterval st now
  | .written row now => row = ⟨some tx.taskId, now, false⟩ ∧ st.writer = some node ∧
      st.tasks = [] ∧ Due minInterval st now

structure Sound (st : State) : Prop where
  single : ∀ id ∈ st.tasks, ∃ row, st.row = some row ∧ row.taskId = some id
  once : st.tasks.Nodup
  spaced : st.starts.Pairwise fun later earlier : Start =>
    later.time < earlier.time + minInterval → earlier.requests < later.requests
  ordered : st.starts.Pairwise fun later earlier => earlier.requests ≤ later.requests
  last : ∀ last, st.starts.head? = some last → last.requests ≤ st.requests ∧
    ∃ row, st.row = some row ∧ row.lastRunTime = last.time ∧
      (row.runNowRequest = true → last.requests < st.requests)
  ids : ∀ row id, st.row = some row → row.taskId = some id → id < st.nextId ∧
    ∀ node tx, st.tx node = some tx → tx.taskId ≠ id
  txs : ∀ node tx, st.tx node = some tx → tx.taskId < st.nextId ∧
    tx.seen ≤ st.starts.length ∧ Found minInterval st node tx
  distinct : ∀ node other tx tx', st.tx node = some tx → st.tx other = some tx' →
    tx.taskId = tx'.taskId → node = other

variable {minInterval} {st next : State} {node : Nat}

theorem setNode_tx (st : State) (node other : Nat) (value : Node) :
    (st.setNode node value).tx other = if other = node then value.tx else st.tx other := by
  simp only [State.tx, State.setNode, Function.update_apply]
  split <;> rfl

theorem setTx_self (st : State) (node : Nat) (tx : Option Tx) :
    (st.setTx node tx).tx node = tx := by
  simp [State.setTx, setNode_tx]

theorem abort_tx (st : State) (node other : Nat) (value : Node) :
    (st.abort node value).tx other = if other = node then value.tx else st.tx other :=
  setNode_tx st node other value

attribute [local grind =] setNode_tx abort_tx
attribute [local grind] State.setTx State.abort Due

structure Kept (st next : State) (node : Nat) : Prop where
  tasks : next.tasks = st.tasks
  row : next.row = st.row
  nextId : next.nextId = st.nextId
  starts : next.starts = st.starts
  requests : next.requests = st.requests
  writer : ∀ other, other ≠ node → st.writer = some other → next.writer = some other
  others : ∀ other, other ≠ node → next.tx other = st.tx other

variable {tx : Tx} {now : Int}

theorem Kept.found (kept : Kept st next node) {other : Nat} (differ : other ≠ node)
    (found : Found minInterval st other tx) : Found minInterval next other tx := by
  obtain ⟨tasks, row, -, starts, requests, writer, -⟩ := kept
  unfold Found Due at *
  rw [row, starts, requests]
  grind

theorem Sound.advanced (sound : Sound minInterval st) (kept : Kept st next node)
    (follows : ∀ later, next.tx node = some later → ∃ tx, st.tx node = some tx ∧
      later.taskId = tx.taskId ∧ later.seen ≤ st.starts.length ∧
      Found minInterval next node later) : Sound minInterval next := by
  obtain ⟨single, once, spaced, ordered, last, ids, txs, distinct⟩ := sound
  have before : ∀ other later, next.tx other = some later → ∃ tx, st.tx other = some tx ∧
      later.taskId = tx.taskId ∧ later.seen ≤ st.starts.length ∧
      Found minInterval next other later := by
    intro other later here
    by_cases mine : other = node
    · subst mine
      exact follows later here
    · rw [kept.others other mine] at here
      obtain ⟨-, seen, known⟩ := txs other later here
      exact ⟨later, here, rfl, seen, kept.found mine known⟩
  obtain ⟨tasks, row, nextId, starts, requests, -, -⟩ := kept
  refine ⟨by rwa [tasks, row], by rwa [tasks], by rwa [starts], by rwa [starts],
    by rwa [starts, requests, row], ?_, ?_, ?_⟩
  · intro value id present isId
    rw [row] at present
    obtain ⟨below, apart⟩ := ids value id present isId
    refine ⟨nextId ▸ below, fun other later here => ?_⟩
    obtain ⟨tx, there, same, -⟩ := before other later here
    exact same ▸ apart other tx there
  · intro other later here
    obtain ⟨tx, there, same, seen, known⟩ := before other later here
    rw [nextId, starts, same]
    exact ⟨(txs other tx there).1, seen, known⟩
  · intro one other later later' here here' equal
    obtain ⟨tx, there, same, -⟩ := before one later here
    obtain ⟨tx', there', same', -⟩ := before other later' here'
    exact distinct one other tx tx' there there' (same ▸ same' ▸ equal)

theorem kept_setTx (st : State) (node : Nat) (tx : Option Tx) : Kept st (st.setTx node tx) node :=
  ⟨rfl, rfl, rfl, rfl, rfl, fun _ _ writes => writes, by grind⟩

theorem kept_abort (st : State) (node : Nat) (value : Node) :
    Kept st (st.abort node value) node where
  tasks := rfl
  row := rfl
  nextId := rfl
  starts := rfl
  requests := rfl
  writer := by grind
  others := by grind

section

variable (sound : Sound minInterval st)
include sound

theorem Sound.due_spaced (due : Due minInterval st now) :
    ∀ earlier ∈ st.starts, earlier.requests ≤ st.requests ∧
      (now < earlier.time + minInterval → earlier.requests < st.requests) := by
  obtain ⟨-, -, spaced, ordered, last, -, -, -⟩ := sound
  unfold Due at due
  cases starts : st.starts with
  | nil => simp
  | cons first rest =>
    rw [starts] at due spaced ordered last
    obtain ⟨bound, -⟩ := last first rfl
    intro earlier member
    rcases mem_cons.mp member with rfl | older
    · grind
    · have apart := rel_of_pairwise_cons spaced older
      have before := rel_of_pairwise_cons ordered older
      grind

section

variable (present : st.tx node = some tx)
include present

theorem Sound.committed {row : Row} (phase : tx.phase = .written row now) :
    Sound minInterval { st.setTx node none with
      tasks := st.tasks ++ [tx.taskId]
      row := some row
      writer := none
      starts := ⟨now, st.requests⟩ :: st.starts } := by
  have mine := sound.txs node tx present
  simp only [Found, phase] at mine
  obtain ⟨fresh, -, rfl, writes, empty, due⟩ := mine
  have apart := sound.due_spaced due
  have others : ∀ other later, (st.setTx node none).tx other = some later →
      other ≠ node ∧ st.tx other = some later := by grind
  have distinct := sound.distinct
  refine ⟨by grind, by grind, ?_, ?_, by grind [State.setNode], ?_, ?_, ?_⟩
  · exact pairwise_cons.mpr ⟨fun earlier member => (apart earlier member).2, sound.spaced⟩
  · exact pairwise_cons.mpr ⟨fun earlier member => (apart earlier member).1, sound.ordered⟩
  · intro row id same isId
    refine ⟨by grind [State.setNode], fun other later here => ?_⟩
    obtain ⟨differ, there⟩ := others other later here
    grind
  · intro other later here
    obtain ⟨differ, there⟩ := others other later here
    obtain ⟨small, seen, found⟩ := sound.txs other later there
    refine ⟨small, Nat.le_succ_of_le seen, ?_⟩
    -- the others have read the row before, and are disturbed from now on
    unfold Found at *
    have late : later.seen ≠ st.starts.length + 1 := by omega
    split <;> simp_all
  · intro other other' later later' here here'
    exact distinct other other' later later' (others _ _ here).2 (others _ _ here').2

theorem Sound.decided {read : Option Row} (phase : tx.phase = .read read now)
    (undisturbed : tx.seen = st.starts.length) (should : st.shouldRun minInterval now read = true) :
    st.tasks = [] ∧ Due minInterval st now := by
  have found := (sound.txs node tx present).2.2
  have single := sound.single
  have last := sound.last
  unfold Found at found
  unfold State.shouldRun at should
  refine ⟨eq_nil_iff_forall_not_mem.mpr fun id member => ?_, fun last isLast => ?_⟩
  · cases read <;> grind
  · cases read <;> grind

theorem Sound.advance {action : Action}
    (undisturbed : ∀ other, action = .lockRow other → tx.seen = st.starts.length)
    (stepped : st.advance minInterval node tx action = some next) : Sound minInterval next := by
  obtain ⟨fresh, seen, found⟩ := sound.txs node tx present
  have last := sound.last
  unfold State.advance at stepped
  split at stepped
  · split at stepped <;> cases stepped
    refine sound.advanced (kept_setTx ..) fun later here => ?_
    cases (setTx_self ..).symm.trans here
    refine ⟨tx, present, rfl, Nat.le_refl _, ?_⟩
    cases row : st.row <;> grind [Found, State.setNode]
  · split at stepped <;> cases stepped
    rename_i read now phase
    refine sound.advanced (kept_setTx ..) fun later here => ?_
    rw [setTx_self] at here
    split at here <;> cases here
    rename_i should
    exact ⟨tx, present, rfl, seen, fun same => sound.decided present phase same should⟩
  · split at stepped <;> cases stepped
    refine sound.advanced (kept_setTx ..) fun later here => ?_
    cases (setTx_self ..).symm.trans here
    exact ⟨tx, present, rfl, seen, by grind [Found, State.setNode]⟩
  · split at stepped <;> try cases stepped
    split at stepped <;> cases stepped
    rename_i active now phase free
    have kept := kept_setTx st node
      (some { tx with phase := .written (upsert active tx.taskId now st.row) now })
    refine sound.advanced ⟨kept.1, kept.2, kept.3, kept.4, kept.5, by grind, kept.7⟩
      fun later here => ?_
    cases (setTx_self ..).symm.trans here
    refine ⟨tx, present, rfl, seen, ?_⟩
    simp only [Found, phase] at found
    obtain ⟨rfl, empty, due⟩ := found (undisturbed _ rfl)
    refine ⟨?_, rfl, empty, due⟩
    -- the row refers to a committed task, which is not the new one and not active
    have other := sound.ids
    cases row : st.row with
    | none => rfl
    | some value => cases isId : value.taskId <;> grind [upsert]
  · split at stepped <;> cases stepped
    rename_i phase
    exact sound.committed present phase
  · cases stepped
    exact sound.advanced (kept_abort ..) (by grind)
  · cases stepped

end

theorem Sound.step {action : Action} (undisturbed : Undisturbed st action = true)
    (stepped : st.step minInterval action = some next) : Sound minInterval next := by
  unfold State.step at stepped
  split at stepped
  · unfold State.call at stepped
    dsimp only at stepped
    split at stepped <;> try cases stepped
    split at stepped <;> cases stepped
    · exact sound
    · rename_i node now free allowed
      obtain ⟨single, once, spaced, ordered, last, ids, txs, distinct⟩ := sound
      have later : ∀ other tx,
          (st.setNode node ⟨some now, false, some ⟨st.nextId, .inserted, 0⟩⟩).tx other = some tx →
            other = node ∧ tx = ⟨st.nextId, .inserted, 0⟩ ∨
            other ≠ node ∧ st.tx other = some tx := by grind
      refine ⟨single, once, spaced, ordered, last, ?_, ?_, ?_⟩
      · intro row id present isId
        have before := ids row id present isId
        refine ⟨Nat.lt_succ_of_lt before.1, fun other tx here => ?_⟩
        have := later other tx here
        grind
      · intro other tx here
        rcases later other tx here with ⟨rfl, rfl⟩ | ⟨-, there⟩
        · exact ⟨Nat.lt_succ_self _, Nat.zero_le _, trivial⟩
        · grind [State.setNode, Found]
      · intro other other' tx tx' here here' same
        have := later other tx here
        have := later other' tx' here'
        grind
  any_goals
    obtain ⟨tx, present, stepped⟩ := Option.bind_eq_some_iff.mp stepped
    exact sound.advance present (by grind [Undisturbed]) stepped
  · cases stepped
    exact sound.advanced (kept_abort ..) (by grind)
  · cases stepped
    rename_i node
    have kept : Kept st (st.setNode node { st.nodes node with
        runNowFlag := (st.nodes node).runNowFlag || st.row.any Row.runNowRequest }) node :=
      ⟨rfl, rfl, rfl, rfl, rfl, fun _ _ writes => writes, by grind⟩
    refine sound.advanced kept fun later here => ?_
    rw [setNode_tx, if_pos rfl] at here
    obtain ⟨-, seen, found⟩ := sound.txs node later here
    exact ⟨later, here, rfl, seen, found⟩
  · split at stepped <;> cases stepped
    rename_i id active
    obtain ⟨single, once, spaced, ordered, last, ids, txs, distinct⟩ := sound
    refine ⟨by grind, once.erase id, spaced, ordered, by grind, by grind, ?_, distinct⟩
    intro node tx here
    obtain ⟨fresh, seen, found⟩ := txs node tx here
    refine ⟨fresh, seen, ?_⟩
    -- a transaction that is about to write has seen that nothing runs
    unfold Found at found ⊢
    cases phase : tx.phase with
    | read row now => cases row <;> grind
    | _ => grind
  · obtain ⟨row, present, stepped⟩ := Option.bind_eq_some_iff.mp stepped
    split at stepped <;> cases stepped
    rename_i free
    obtain ⟨single, once, spaced, ordered, last, ids, txs, distinct⟩ := sound
    refine ⟨by grind, once, spaced, ordered, ?_, ?_, ?_, distinct⟩
    · grind
    · rintro _ id ⟨⟩ isId
      exact ids row id present isId
    · intro node tx here
      obtain ⟨fresh, seen, found⟩ := txs node tx here
      refine ⟨fresh, seen, ?_⟩
      unfold Found at found ⊢
      cases phase : tx.phase with
      | read row now => cases row <;> grind
      | _ => grind

end

theorem initial_sound : Sound minInterval State.initial := by
  constructor <;> simp [State.initial, State.tx]

/-- If every upsert is undisturbed, there is one task of the name at most, and two of them are
added within the interval only if a run-now request was made in between. -/
theorem singleton_exclusive {minInterval : Nat} {actions : List Action} {st : State}
    (under : RunsUnder (State.step minInterval) (Undisturbed · ·) State.initial actions)
    (ran : run (State.step minInterval) State.initial actions = some st) :
    st.tasks.length ≤ 1 ∧ st.starts.Pairwise fun later earlier : Start =>
      later.time < earlier.time + minInterval → earlier.requests < later.requests := by
  have sound : Sound minInterval st :=
    run_invariant (fun _ _ _ before => before.step) initial_sound under ran
  refine ⟨?_, sound.spaced⟩
  have same : ∀ id ∈ st.tasks, ∀ other ∈ st.tasks, id = other := by
    intro id member other otherMember
    have := sound.single id member
    have := sound.single other otherMember
    grind
  have once := sound.once
  match tasks : st.tasks with
  | [] | [_] => simp
  | first :: second :: rest =>
    have equal := same first (by simp [tasks]) second (by simp [tasks])
    simp [tasks, equal] at once

end Invariant

def add (node : Nat) (now : Int) : List Action :=
  [.call node now, .select node now, .check node, .startUpsert node, .lockRow node, .commit node]

theorem singleton_exclusive_requested : ∃ st, run (State.step 60) State.initial
      (add 0 100 ++ [.requestRunNow, .complete 1, .poll 0] ++ add 0 110) = some st ∧
    st.tasks.length ≤ 1 ∧ st.starts.Pairwise fun later earlier : Start =>
      later.time < earlier.time + (60 : Nat) → earlier.requests < later.requests := by
  obtain ⟨st, ran⟩ := Option.isSome_iff_exists.mp
    (rfl : (run (State.step 60) State.initial
      (add 0 100 ++ [.requestRunNow, .complete 1, .poll 0] ++ add 0 110)).isSome = true)
  exact ⟨st, ran, singleton_exclusive (by decide) ran⟩

/-- Two nodes that read the row before either of them has written it both add a task. -/
theorem two_singletons : ∃ st, run (State.step 60) State.initial
      [.call 0 100, .call 1 100, .select 0 100, .select 1 100, .check 0, .check 1, .startUpsert 0,
        .startUpsert 1, .lockRow 0, .commit 0, .lockRow 1, .commit 1] = some st ∧
    st.tasks = [1, 2] ∧ st.starts = [⟨100, 0⟩, ⟨100, 0⟩] :=
  ⟨_, rfl, rfl, rfl⟩

end Curio.Harmony.Singleton
