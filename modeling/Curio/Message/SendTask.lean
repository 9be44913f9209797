import Curio.Entries
import Curio.StepMachine

/-! `tasks/message/sender.go` and `sender_eth.go`: queued messages get their nonce, are signed,
stored and pushed by `Do`, one step after the other, under a lock row for each sender.

The runs of `Do` are kept by task, so that two runs of one task never overlap. Every step may fail
or be the last one before a crash. A failing database or node may have done what it was asked for. -/

namespace Curio.Message

open Entries

abbrev TaskId := Nat

structure Signed (Key Unsigned : Type) where
  sender : Key
  message : Unsigned
  nonce : Nat
  signature : List UInt8
  deriving DecidableEq

/-- A row of `message_sends` or `message_sends_eth`; its key is `send_task_id`. -/
structure SendRow (Key Unsigned : Type) where
  fromKey : Key
  unsigned : Unsigned
  nonce : Option Nat := none
  signed : Option (Signed Key Unsigned) := none
  sendSuccess : Option Bool := none
  sendError : Option String := none

structure SendTexts where
  read : String
  resend : String
  nonce : String
  dbNonce : String
  sign : String
  rows : String

/-- Where the two senders differ: what `Send` puts into the row for a request, whose nonce `Do`
asks for, and its texts. -/
structure Chain (Key Request Unsigned : Type) where
  sendKey : Request → Key
  sendData : Request → Unsigned
  account : Key → Unsigned → Key
  account_send : ∀ request, account (sendKey request) (sendData request) = sendKey request
  texts : SendTexts

structure FilMessage (Address Body : Type) where
  src : Address
  body : Body
  deriving DecidableEq

/-- `Send` stores `msg.From`, and `Do` takes it from the message again. -/
def filecoin (Address Body : Type) :
    Chain Address (FilMessage Address Body) (FilMessage Address Body) where
  sendKey := FilMessage.src
  sendData := id
  account := fun _ msg => msg.src
  account_send := fun _ => rfl
  texts :=
    { read := "getting message from db"
      resend := "unmarshaling signed db message"
      nonce := "getting nonce from mpool"
      dbNonce := "getting nonce from db"
      sign := "signing message"
      rows := "updating db record: expected 1 row to be affected, got 0" }

/-- `Send` gets the address beside the transaction, and `Do` takes it from the row. -/
def eth (Address Tx : Type) : Chain Address (Address × Tx) Tx where
  sendKey := Prod.fst
  sendData := Prod.snd
  account := fun fromAddress _ => fromAddress
  account_send := fun _ => rfl
  texts :=
    { read := "getting transaction from db"
      resend := "unmarshaling signed transaction"
      nonce := "getting pending nonce"
      dbNonce := "getting max nonce from db"
      sign := "signing transaction"
      rows := "expected to update 1 row, updated 0" }

section Database

variable {Key Unsigned : Type} [DecidableEq Key]

/-- The unique index on sender and nonce of the rows whose `send_success` is not false. -/
def duplicates (rows : SerialTable (SendRow Key Unsigned)) (task : TaskId)
    (row : SendRow Key Unsigned) : Bool :=
  row.sendSuccess != some false && row.nonce.isSome &&
    rows.entries.any fun entry =>
      entry.1 != task && entry.2.fromKey == row.fromKey && entry.2.nonce == row.nonce &&
        entry.2.sendSuccess != some false

/-- What comes back from the database or the node; a lost answer is an error after the work was
done. -/
inductive Answer where
  | ok
  | failed (message : String)
  | lost (message : String)

def duplicateKey : String := "duplicate key value violates unique constraint"

/-- `UPDATE … WHERE send_task_id = task`: the rows afterwards, and their number or the error. The
index may forbid the update. -/
def updateRow (rows : SerialTable (SendRow Key Unsigned)) (task : TaskId)
    (change : SendRow Key Unsigned → SendRow Key Unsigned) (answer : Answer) :
    SerialTable (SendRow Key Unsigned) × Except String Nat :=
  let allowed := match rows.get task with
    | none => true
    | some row => !duplicates rows task (change row)
  let changed := rows.update fun id old => if id = task then change old else old
  match answer, allowed with
  | .failed message, _ => (rows, .error message)
  | _, false => (rows, .error duplicateKey)
  | .lost message, true => (changed, .error message)
  | .ok, true => (changed, .ok (if (rows.get task).isSome then 1 else 0))

/-- `SELECT MAX(nonce) … WHERE from_key = key AND send_success = true` -/
def maxNonce (rows : SerialTable (SendRow Key Unsigned)) (key : Key) : Option Nat :=
  (rows.entries.filterMap fun entry =>
    if entry.2.fromKey = key ∧ entry.2.sendSuccess = some true then entry.2.nonce else none).max?

/-- What the node reports: one more than the highest nonce that it accepted. -/
def nextNonce (start : Key → Nat) (accepted : List (Signed Key Unsigned)) (key : Key) : Nat :=
  ((accepted.filter fun message => message.sender = key).map fun message => message.nonce + 1).foldr
    max (start key)

def takes (start : Key → Nat) (accepted : List (Signed Key Unsigned))
    (message : Signed Key Unsigned) : Bool :=
  start message.sender ≤ message.nonce &&
    accepted.all fun other => !(other.sender = message.sender && other.nonce = message.nonce)

end Database

inductive Phase (Key Unsigned : Type) where
  | reading
  | locking (dbMsg : SendRow Key Unsigned)
  | asking (dbMsg : SendRow Key Unsigned)
  | counting (dbMsg : SendRow Key Unsigned) (msgNonce : Nat)
  | signing (dbMsg : SendRow Key Unsigned) (msgNonce : Nat)
  | persisting (dbMsg : SendRow Key Unsigned) (sigMsg : Signed Key Unsigned)
  | pushing (dbMsg : SendRow Key Unsigned) (sigMsg : Signed Key Unsigned)
  | recording (dbMsg : SendRow Key Unsigned) (sendError : Option String)
  | releasing (dbMsg : SendRow Key Unsigned) (done : Bool) (err : Option String)

/-- The tables, the runs of `Do` and what they returned, what the node accepted, and every push. -/
structure SendState (Key Unsigned : Type) where
  rows : SerialTable (SendRow Key Unsigned)
  locks : KeyMap Key TaskId
  runs : KeyMap TaskId (Phase Key Unsigned)
  returns : List (TaskId × Bool × Option String)
  accepted : List (Signed Key Unsigned)
  pushed : List (TaskId × Signed Key Unsigned)

inductive SendAction (Request : Type) where
  | send (request : Request)
  | run (task : TaskId)
  | crash (task : TaskId)
  | read (task : TaskId) (answer : Answer)
  | disown (task : TaskId)
  | lock (task : TaskId) (answer : Answer)
  | getNonce (task : TaskId) (answer : Answer)
  | maxNonce (task : TaskId) (answer : Answer)
  | sign (task : TaskId) (signature : Except String (List UInt8))
  | persist (task : TaskId) (answer : Answer)
  | push (task : TaskId) (accept : Bool) (reply : Option String)
  | record (task : TaskId) (answer : Answer)
  | release (task : TaskId) (answer : Answer)

namespace SendState

variable {Key Request Unsigned : Type} [DecidableEq Key] [DecidableEq Unsigned]

def init : SendState Key Unsigned := ⟨.empty, .empty, .empty, [], [], []⟩

def enter (state : SendState Key Unsigned) (task : TaskId) (phase : Phase Key Unsigned) :
    SendState Key Unsigned :=
  { state with runs := state.runs.put task phase }

def finish (state : SendState Key Unsigned) (task : TaskId) (done : Bool) (err : Option String) :
    SendState Key Unsigned :=
  { state with
    runs := state.runs.remove task
    returns := state.returns ++ [(task, done, err)] }

/-- `INSERT … ON CONFLICT (from_key) DO UPDATE … WHERE task_id = task`: the locks afterwards, if
the row is this task's. -/
def acquire (locks : KeyMap Key TaskId) (key : Key) (task : TaskId) : Option (KeyMap Key TaskId) :=
  match locks.get key with
  | none => some (locks.put key task)
  | some holder => if holder = task then some (locks.put key task) else none

/-- `DELETE … WHERE from_key = key AND task_id = task` -/
def unlock (locks : KeyMap Key TaskId) (key : Key) (task : TaskId) : KeyMap Key TaskId :=
  if locks.get key = some task then locks.remove key else locks

/-- Under the lock: a message that has a nonce already is pushed as it was signed. -/
def afterLock (texts : SendTexts) (dbMsg : SendRow Key Unsigned) : Phase Key Unsigned :=
  match dbMsg.nonce, dbMsg.signed with
  | none, _ => .asking dbMsg
  | some _, some sigMsg => .pushing dbMsg sigMsg
  | some _, none => .releasing dbMsg false (some (texts.resend ++ ": EOF"))

variable (chain : Chain Key Request Unsigned) (start : Key → Nat)

def stepRun (state : SendState Key Unsigned) (task : TaskId) :
    SendAction Request → Phase Key Unsigned → Option (SendState Key Unsigned)
  | .read _ answer, .reading =>
    match answer, state.rows.get task with
    | .ok, some row => some (state.enter task (.locking row))
    | .ok, none =>
      some (state.finish task false (some (chain.texts.read ++ ": no rows in result set")))
    | .failed message, _ | .lost message, _ =>
      some (state.finish task false (some (chain.texts.read ++ ": " ++ message)))
  | .disown _, .locking _ => some (state.finish task false (some "lost ownership of task"))
  | .lock _ answer, .locking dbMsg =>
    match answer, acquire state.locks dbMsg.fromKey task with
    | .ok, some locks => some ({ state with locks }.enter task (afterLock chain.texts dbMsg))
    -- someone else has the lock: wait and try again
    | .ok, none => some state
    | .failed message, _ | .lost message, none =>
      some (state.finish task false (some ("acquiring send lock: " ++ message)))
    | .lost message, some locks =>
      some ({ state with locks }.finish task false (some ("acquiring send lock: " ++ message)))
  | .getNonce _ answer, .asking dbMsg =>
    match answer with
    | .ok =>
      let msgNonce :=
        nextNonce start state.accepted (chain.account dbMsg.fromKey dbMsg.unsigned)
      some (state.enter task (.counting dbMsg msgNonce))
    | .failed message | .lost message =>
      some (state.enter task
        (.releasing dbMsg false (some (chain.texts.nonce ++ ": " ++ message))))
  | .maxNonce _ answer, .counting dbMsg msgNonce =>
    match answer with
    | .ok =>
      match Message.maxNonce state.rows (chain.account dbMsg.fromKey dbMsg.unsigned) with
      | some dbNonce =>
        some (state.enter task
          (.signing dbMsg (if dbNonce + 1 > msgNonce then dbNonce + 1 else msgNonce)))
      | none => some (state.enter task (.signing dbMsg msgNonce))
    | .failed message | .lost message =>
      some (state.enter task
        (.releasing dbMsg false (some (chain.texts.dbNonce ++ ": " ++ message))))
  | .sign _ signature, .signing dbMsg msgNonce =>
    match signature with
    | .ok bytes =>
      let sigMsg := ⟨chain.account dbMsg.fromKey dbMsg.unsigned, dbMsg.unsigned, msgNonce, bytes⟩
      some (state.enter task (.persisting dbMsg sigMsg))
    | .error message =>
      some (state.enter task (.releasing dbMsg false (some (chain.texts.sign ++ ": " ++ message))))
  | .persist _ answer, .persisting dbMsg sigMsg =>
    let change := fun row : SendRow Key Unsigned =>
      { row with nonce := some sigMsg.nonce, signed := some sigMsg }
    match updateRow state.rows task change answer with
    | (rows, .error message) =>
      some ({ state with rows }.enter task
        (.releasing dbMsg false (some ("updating db record: " ++ message))))
    | (rows, .ok count) =>
      if count = 1 then some ({ state with rows }.enter task (.pushing dbMsg sigMsg))
      else some ({ state with rows }.enter task (.releasing dbMsg false (some chain.texts.rows)))
  | .push _ accept reply, .pushing dbMsg sigMsg =>
    let accepted :=
      if accept && takes start state.accepted sigMsg then state.accepted ++ [sigMsg]
      else state.accepted
    -- the node reports success only for a message that it has
    if reply = none ∧ sigMsg ∉ accepted then none
    else
      some ({ state with accepted, pushed := state.pushed ++ [(task, sigMsg)] }.enter task
        (.recording dbMsg reply))
  | .record _ answer, .recording dbMsg sendError =>
    let change := fun row : SendRow Key Unsigned =>
      { row with
        sendSuccess := some sendError.isNone
        sendError := some (sendError.getD "") }
    match updateRow state.rows task change answer with
    | (rows, .error message) =>
      some ({ state with rows }.enter task
        (.releasing dbMsg false (some ("updating db record: " ++ message))))
    | (rows, .ok _) => some ({ state with rows }.enter task (.releasing dbMsg true none))
  | .release _ answer, .releasing dbMsg done err =>
    let locks := unlock state.locks dbMsg.fromKey task
    let failure := fun message =>
      some (match err with
        | none => "releasing send lock: " ++ message
        | some before => before ++ "; releasing send lock: " ++ message)
    match answer with
    | .ok => some ({ state with locks }.finish task done err)
    | .failed message => some (state.finish task false (failure message))
    | .lost message => some ({ state with locks }.finish task false (failure message))
  | .crash _, _ => some { state with runs := state.runs.remove task }
  | _, _ => none

def taskOf : SendAction Request → Option TaskId
  | .send _ => none
  | .run task | .crash task | .read task _ | .disown task | .lock task _ | .getNonce task _
  | .maxNonce task _ | .sign task _ | .persist task _ | .push task _ _ | .record task _
  | .release task _ => some task

/-- `Send` queues a message, harmony runs a task that is not running, or a run goes on. -/
def step (state : SendState Key Unsigned) (action : SendAction Request) :
    Option (SendState Key Unsigned) :=
  match action with
  | .send request =>
    some { state with
      rows := state.rows.insert
        { fromKey := chain.sendKey request, unsigned := chain.sendData request } }
  | .run task =>
    match state.runs.get task with
    | none => some (state.enter task .reading)
    | some _ => none
  | action => do
      let task ← taskOf action
      let phase ← state.runs.get task
      state.stepRun chain start task action phase

end SendState

end Curio.Message
