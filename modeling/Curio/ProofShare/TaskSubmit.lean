import Curio.GoRuntime
import Curio.StepMachine

/-! `TaskSubmit` of `tasks/proofshare/task_submit.go`: a task sends a finished proof to the proof
service and stores the voucher of the reward. A statement that fails may have been executed, as when
the process stops before the answer comes; a task that is not done runs again. -/

namespace Curio.ProofShare.TaskSubmit

open GoRuntime StepMachine

/-- `proofshare_queue` -/
structure QueueRow where
  serviceID : Int
  requestCid : String
  responseData : Bytes
  submitTaskID : Option Int
  (computeDone submitDone wasPoW : Bool)

structure Voucher where
  (nonce cumulativeAmount : Int)
  signature : Bytes
  deriving DecidableEq

structure ProofReward extends Voucher where
  poW : Bool

/-- `proofshare_provider_payments` -/
structure PaymentRow where
  providerID : Nat
  requestCid : String
  payment : Voucher
  deriving DecidableEq

structure State where
  queue : List QueueRow
  payments : List PaymentRow := []
  /-- What the service has given to the runs of a task. -/
  earned : List (Int × PaymentRow) := []
  done : List Int := []

inductive Response where
  | failed (message : String)
  | gone
  | rewarded (reward : ProofReward)

inductive Statement where
  | ok
  | failed (executed : Bool) (message : String)

def Statement.run (context : String) (before after : State) : Statement → State × Go Unit
  | .ok => (after, .ok ())
  | .failed executed message =>
    (if executed then after else before, wrap context (fail message))

/-- What one call of `Do` meets. -/
structure Env where
  rowQuery : Option String := none
  wallet : GoRuntime.Call String
  (newFromString stateLookupID : String → GoRuntime.Call String)
  idFromAddress : String → GoRuntime.Call Nat
  newAddressResolver : GoRuntime.Call Unit := .ok ()
  respondWork : String → String → Bytes → Response
  (delete update insert : Statement := .ok)

def Env.walletId (env : Env) : Go (String × Nat) := do
  let wallet ← wrap "failed to read wallet from proofshare_meta" (ofCall env.wallet)
  if wallet = "" then fail "no wallet address configured in proofshare_meta"
  else
    let addr ← wrap "failed to parse wallet address" (ofCall (env.newFromString wallet))
    let actid ← wrap "failed to lookup address" (ofCall (env.stateLookupID addr))
    let walletId ← wrap "failed to get wallet id" (ofCall (env.idFromAddress actid))
    wrap "failed to create address resolver" (ofCall env.newAddressResolver)
    .ok (addr, walletId)

namespace State

def ready (row : QueueRow) : Bool := row.computeDone && !row.submitDone && row.submitTaskID.isNone

/-- `pick` says which of the rows an unordered `LIMIT 1` gives. -/
def schedule (st : State) (id : Int) (pick : Nat) : State :=
  match (st.queue.filter ready)[pick]? with
  | none => st
  | some taskRow => { st with queue := st.queue.map fun row =>
      if row.serviceID = taskRow.serviceID ∧ ready row then { row with submitTaskID := some id }
      else row }

/-- The primary key is the provider with the nonce. -/
def insertPayment (st : State) (env : Env) (row : PaymentRow) : State × Go Unit :=
  if ∃ old ∈ st.payments, old.providerID = row.providerID ∧ old.payment.nonce = row.payment.nonce then
    (st, fail "failed to insert payment into DB: duplicate key value violates unique constraint")
  else env.insert.run "failed to insert payment into DB" st { st with payments := row :: st.payments }

/-- The task is done where there is no error. -/
def Do (st : State) (taskID : Int) (env : Env) : State × Go Unit :=
  match env.rowQuery, st.queue.find? (·.submitTaskID = some taskID) with
  | none, some row =>
    match env.walletId with
    | .error err => (st, .error err)
    | .ok (addr, walletId) =>
      match env.respondWork addr row.requestCid row.responseData with
      | .failed message => (st, wrap "failed to respond to work (gone=false)" (fail message))
      | .gone => env.delete.run "failed to delete row after work request gone" st
          { st with queue := st.queue.filter (·.serviceID ≠ row.serviceID) }
      | .rewarded reward =>
        let payment : PaymentRow := ⟨walletId, row.requestCid, reward.toVoucher⟩
        let st := if reward.poW then st else { st with earned := (taskID, payment) :: st.earned }
        match env.update.run "failed to update row after submit" st { st with
          queue := st.queue.map fun other => if other.serviceID = row.serviceID then
            { other with submitDone := true, submitTaskID := none, wasPoW := reward.poW }
            else other } with
        | (after, .error err) => (after, .error err)
        | (after, .ok ()) => if reward.poW then (after, .ok ()) else after.insertPayment env payment
  -- no row was found or read: "orphan, can't do much"
  | _, _ => (st, .ok ())

end State

inductive Action where
  | schedule (id : Int) (pick : Nat)
  | run (taskID : Int) (env : Env)

def State.step (st : State) : Action → Option State
  | .schedule id pick => some (st.schedule id pick)
  | .run taskID env =>
    if taskID ∈ st.done then none
    else match st.Do taskID env with
      | (after, .ok ()) => some { after with done := taskID :: after.done }
      | (after, .error _) => some after

/-- After a reward both statements are executed, and its nonce is new. -/
def Recorded (st : State) : Action → Prop
  | .schedule .. => True
  | .run taskID env => ∀ addr walletId, env.walletId = .ok (addr, walletId) → ∀ row ∈ st.queue,
      row.submitTaskID = some taskID →
      ∀ reward, env.respondWork addr row.requestCid row.responseData = .rewarded reward →
        reward.poW = false → env.update = .ok ∧ (∀ message, env.insert ≠ .failed false message) ∧
          ∀ old ∈ st.payments, old.providerID = walletId → old.payment.nonce ≠ reward.nonce

def Stored (st : State) : Prop := ∀ entry ∈ st.earned, entry.2 ∈ st.payments

theorem Stored.run {before after : State} (first : Stored before) (second : Stored after)
    (context : String) (statement : Statement) :
    Stored (statement.run context before after).1 := by
  cases statement with
  | ok => exact second
  | failed executed message => cases executed <;> assumption

theorem Stored.Do {st : State} {taskID : Int} {env : Env} (stored : Stored st)
    (recorded : Recorded st (.run taskID env)) : Stored (st.Do taskID env).1 := by
  unfold State.Do
  split
  · rename_i row _ found
    split
    · exact stored
    · rename_i addr walletId known
      split
      · exact stored
      · exact stored.run (by exact stored) _ _
      · rename_i reward answered
        have own : row.submitTaskID = some taskID := by simpa using List.find?_some found
        have recorded := recorded addr walletId known row (List.mem_of_find?_eq_some found) own
          reward answered
        cases pow : reward.poW with
        | true => cases env.update <;> grind [Stored, Statement.run]
        | false =>
          obtain ⟨updated, inserted, new⟩ := recorded pow
          cases inserts : env.insert <;> grind [Stored, Statement.run, State.insertPayment]
  · exact stored

theorem Stored.step {st next : State} {action : Action} (stored : Stored st)
    (recorded : Recorded st action) (stepped : st.step action = some next) : Stored next := by
  cases action with
  | schedule id pick => grind [Stored, State.step, State.schedule]
  | run taskID env =>
    have kept := stored.Do recorded
    grind [Stored, State.step]

/-- In a run in which both statements are executed after every reward, the vouchers of all rewards
are stored, those of the tasks that are done included. -/
theorem rewards_stored (st final : State) (actions : List Action) (fresh : st.earned = [])
    (recorded : RunsUnder State.step Recorded st actions)
    (ran : run State.step st actions = some final) :
    ∀ entry ∈ final.earned, entry.2 ∈ final.payments := by
  have initial : Stored st := by simp [Stored, fresh]
  have stored : Stored final := run_invariant (fun _ _ _ => Stored.step) initial recorded ran
  exact stored

def finished : State := { queue := [⟨7, "request", [1], none, true, false, false⟩] }

def rewarding : Env where
  wallet := .ok "f1wallet"
  newFromString := .ok
  stateLookupID := .ok
  idFromAddress _ := .ok 1000
  respondWork _ _ _ := .rewarded ⟨⟨5, 80, [9]⟩, false⟩

theorem rewards_stored_once :
    ∃ final, run State.step finished [.schedule 1 0, .run 1 rewarding] = some final ∧
      ⟨1000, "request", ⟨5, 80, [9]⟩⟩ ∈ final.payments := by
  have recorded : RunsUnder State.step Recorded finished [.schedule 1 0, .run 1 rewarding] := by
    refine .of_step trivial rfl (.of_step ?_ rfl trivial)
    exact fun _ _ _ _ _ _ _ _ _ => ⟨rfl, nofun, nofun⟩
  exact ⟨_, rfl, rewards_stored finished _ _ rfl recorded rfl (1, _) (.head _)⟩

/-- The row is marked as submitted, the insert fails, and the next run finds no row and is done. -/
theorem reward_lost :
    ∃ final, run State.step finished [.schedule 1 0,
        .run 1 { rewarding with insert := .failed false "connection lost" },
        .run 1 rewarding] = some final ∧ 1 ∈ final.done ∧
      (1, ⟨1000, "request", ⟨5, 80, [9]⟩⟩) ∈ final.earned ∧ final.payments = [] :=
  ⟨_, rfl, .head _, .head _, rfl⟩

end Curio.ProofShare.TaskSubmit
