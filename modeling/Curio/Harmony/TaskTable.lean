import Curio.Entries
import Curio.GoRuntime
import Curio.StepMachine

/-! The tables `harmony_task`, `harmony_machines` and `harmony_task_history`, and the statements of
`harmony/harmonytask/task_type_handler.go` and `harmony/resources/resources.go` on them.

A statement or transaction is atomic. Times are in milliseconds of the one database clock. -/

namespace Curio.Harmony

open Entries GoRuntime

abbrev MachineId := Nat

abbrev TaskId := Nat

structure MachineRow where
  hostAndPort : String
  lastContact : Nat
  deriving DecidableEq

structure TaskRow where
  name : String
  ownerId : Option MachineId := none
  addedBy : MachineId
  postedTime : Nat
  updateTime : Nat
  retries : Nat := 0
  deriving DecidableEq

structure HistoryRow where
  taskId : TaskId
  name : String
  posted : Nat
  workStart : Nat
  workEnd : Nat
  result : Bool
  completedByHostAndPort : String
  err : String
  deriving DecidableEq

structure Database where
  machines : SerialTable MachineRow
  tasks : SerialTable TaskRow
  history : List HistoryRow

structure Engine where
  ownerID : MachineId
  hostAndPort : String
  deriving DecidableEq

structure TaskType where
  name : String
  maxFailures : Nat
  deriving DecidableEq

namespace Database

def looksDeadTimeout : Nat := 10 * 60 * 1000

variable (db : Database)

/-- `ON DELETE SET NULL` of `owner_id`. -/
def disownDeleted : Database :=
  { db with
    tasks := db.tasks.update fun _ row =>
      { row with ownerId := row.ownerId.filter fun owner => (db.machines.get owner).isSome } }

def cleanupMachines (now : Nat) : Database :=
  disownDeleted
    { db with
      machines := db.machines.removeWhere fun _ machine =>
        machine.lastContact + looksDeadTimeout < now }

def upsertMachine (now : Nat) (hostAndPort : String) : MachineId × Database :=
  match db.machines.entries.find? fun machine => machine.2.hostAndPort = hostAndPort with
  | some (id, _) =>
    (id, { db with
      machines := db.machines.update fun _ machine =>
        if machine.hostAndPort = hostAndPort then { machine with lastContact := now }
        else machine })
  | none =>
    (db.machines.next, { db with machines := db.machines.insert ⟨hostAndPort, now⟩ })

def keepalive (now : Nat) (machineID : MachineId) : Database :=
  { db with
    machines := db.machines.update fun id machine =>
      if id = machineID then { machine with lastContact := now } else machine }

def addTask (now : Nat) (name : String) (addedBy : MachineId) : Database :=
  { db with
    tasks := db.tasks.insert { name, addedBy, postedTime := now, updateTime := now } }

/-- The ids that join with an unowned row no other transaction has locked, by their position. -/
def candidates (tIDs locked : List TaskId) (limit : Nat) : List TaskId :=
  ((tIDs.filter fun id => (db.tasks.get id).any (fun row => row.ownerId.isNone) &&
    !locked.contains id).insertionSort fun first second =>
      tIDs.idxOf first ≤ tIDs.idxOf second).take limit

def claim (ownerID : MachineId) (tIDs locked : List TaskId) (maxAcceptable : Nat) :
    Go (List TaskId × Database) :=
  let accepted := (db.candidates tIDs locked maxAcceptable).dedup
  if accepted ≠ [] ∧ db.machines.get ownerID = none then
    fail "update on table harmony_task violates foreign key constraint"
  else
    .ok (accepted, { db with
      tasks := db.tasks.update fun id row =>
        if id ∈ accepted then { row with ownerId := some ownerID } else row })

/-- The reset after a failed storage claim: only the ids are compared. -/
def resetOwner (failedTIDs : List TaskId) : Database :=
  { db with
    tasks := db.tasks.update fun id row =>
      if id ∈ failedTIDs then { row with ownerId := none } else row }

/-- The reset of a task that its restarted owner does not take up again. -/
def removeSelfFromOwner (id : TaskId) (ownerID : MachineId) : Database :=
  { db with
    tasks := db.tasks.update fun other row =>
      if other = id ∧ row.ownerId = some ownerID then { row with ownerId := none } else row }

def completionResult (done : Bool) (doErr : Option String) : String :=
  match done, doErr with
  | true, none => ""
  | true, some err => "non-failing error: " ++ err
  | false, some err => "error: " ++ err
  | false, none => "unspecified error"

def dropsTask (h : TaskType) (done : Bool) (retries : Nat) : Bool :=
  done || (decide (h.maxFailures > 0) && decide (h.maxFailures - 1 ≤ retries))

/-- The transaction of `recordCompletion`: the row is found by its id alone. -/
def recordCompletion (now : Nat) (h : TaskType) (hostAndPort : String) (tID : TaskId)
    (workStart workEnd : Nat) (done : Bool) (doErr : Option String) : Go Database :=
  match db.tasks.get tID with
  | none => fail "could not log completion: no rows in result set "
  | some row =>
    let tasks :=
      if dropsTask h done row.retries then db.tasks.removeWhere fun id _ => id = tID
      else db.tasks.update fun id other =>
        if id = tID then
          { other with ownerId := none, retries := row.retries + 1, updateTime := now }
        else other
    .ok { db with
      tasks
      history := db.history ++ [⟨tID, h.name, row.postedTime, workStart, workEnd, done,
        hostAndPort, completionResult done doErr⟩] }

end Database

/-- How far an engine is with a task: listed as its own after a restart, claimed and waiting for
storage, or running. -/
inductive Stage where
  | recovered
  | claimed
  | started (workStart : Nat)
  deriving DecidableEq

structure Attempt where
  engine : Engine
  task : TaskId
  stage : Stage
  deriving DecidableEq

def Attempt.machine (attempt : Attempt) : MachineId := attempt.engine.ownerID

structure Cluster where
  db : Database
  now : Nat
  attempts : List Attempt

inductive ClusterAction where
  | tick (duration : Nat)
  | start (hostAndPort : String)
  | keepalive (machine : MachineId)
  | cleanup
  | addTask (machine : MachineId) (name : String)
  | claim (engine : Engine) (tIDs locked : List TaskId) (maxAcceptable : Nat)
  | doTask (machine : MachineId) (task : TaskId)
  | backOut (machine : MachineId) (failedTIDs : List TaskId) (reset : Bool)
  | giveUp (machine : MachineId) (task : TaskId)
  | complete (machine : MachineId) (task : TaskId) (h : TaskType) (workEnd : Nat) (done : Bool)
      (doErr : Option String)

namespace Cluster

def findAttempt (state : Cluster) (machine : MachineId) (task : TaskId) (ready : Stage → Bool) :
    Option Attempt :=
  state.attempts.find? fun attempt =>
    attempt.machine = machine && attempt.task = task && ready attempt.stage

def isWaiting : Stage → Bool
  | .recovered | .claimed => true
  | .started _ => false

def workStart? : Stage → Option Nat
  | .started time => some time
  | _ => none

/-- `New`: the old process at the address is gone, and the tasks of its id are taken up. -/
def start (state : Cluster) (hostAndPort : String) : Cluster :=
  let (id, db) := state.db.upsertMachine state.now hostAndPort
  let db := db.cleanupMachines state.now
  let own := db.tasks.entries.filter fun task => task.2.ownerId = some id
  { state with
    db
    attempts := (state.attempts.filter fun attempt => attempt.machine ≠ id) ++
      own.map fun task => ⟨⟨id, hostAndPort⟩, task.1, .recovered⟩ }

/-- The attempts that fail to claim storage are given up, all others go on. -/
def withoutAttempts (attempts : List Attempt) (machine : MachineId) (tasks : List TaskId) :
    List Attempt :=
  attempts.filter fun attempt =>
    !(attempt.machine = machine && tasks.contains attempt.task && isWaiting attempt.stage)

def step (state : Cluster) : ClusterAction → Option Cluster
  | .tick duration => some { state with now := state.now + duration }
  | .start hostAndPort => some (state.start hostAndPort)
  | .keepalive machine => some { state with db := state.db.keepalive state.now machine }
  | .cleanup => some { state with db := state.db.cleanupMachines state.now }
  | .addTask machine name => some { state with db := state.db.addTask state.now name machine }
  | .claim engine tIDs locked maxAcceptable =>
    match state.db.claim engine.ownerID tIDs locked maxAcceptable with
    | .ok (accepted, db) =>
      some { state with
        db
        attempts := state.attempts ++ accepted.map fun task => ⟨engine, task, .claimed⟩ }
    | .error _ => none
  | .doTask machine task =>
    (state.findAttempt machine task isWaiting).map fun attempt =>
      { state with
        attempts := { attempt with stage := .started state.now } :: state.attempts.erase attempt }
  | .backOut machine failedTIDs reset =>
    if failedTIDs.all fun task => (state.findAttempt machine task isWaiting).isSome then
      some { state with
        db := if reset then state.db.resetOwner failedTIDs else state.db
        attempts := withoutAttempts state.attempts machine failedTIDs }
    else none
  | .giveUp machine task =>
    (state.findAttempt machine task fun stage => stage = .recovered).map fun attempt =>
      { state with
        db := state.db.removeSelfFromOwner task machine
        attempts := state.attempts.erase attempt }
  | .complete machine task h workEnd done doErr => do
      let attempt ← state.findAttempt machine task fun stage => (workStart? stage).isSome
      let workStart ← workStart? attempt.stage
      match state.db.recordCompletion state.now h attempt.engine.hostAndPort task workStart workEnd
          done doErr with
      | .ok db => some { state with db, attempts := state.attempts.erase attempt }
      | .error _ => none

def empty : Cluster := ⟨⟨.empty, .empty, []⟩, 0, []⟩

end Cluster

end Curio.Harmony
