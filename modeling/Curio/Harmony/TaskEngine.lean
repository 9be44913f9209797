import Curio.Harmony.TaskTable

/-! The task engine of one machine: `considerWork` and `AssertMachineHasCapacity` of
`harmony/harmonytask/task_type_handler.go`, `ResourcesAvailable` of `harmonytask.go` and `MaxCounter`
of `harmony/taskhelp/max.go`.

The poller is one thread, so it does one thing at a time; tasks end between any two of its reads.
Costs and counts are exact numbers. Adding to a limiter is one step. -/

namespace Curio.Harmony

open Entries GoRuntime

structure Resources where
  cpu : Nat
  gpu : ℚ
  gpu_nonneg : 0 ≤ gpu
  ram : Nat

structure Available where
  cpu : Int
  gpu : ℚ
  ram : Nat

structure TaskTypeDetails where
  name : String
  cost : Resources
  /-- `Cost.Storage != nil` -/
  storage : Bool
  /-- The number of the counter that the limiter of the type shares. -/
  max : Nat

structure EngineSetup where
  handlers : List TaskTypeDetails
  /-- `N` of each counter; zero or less is no limit. -/
  limits : Nat → Int
  resources : Resources
  maxHeadroom : Nat
  maxHeadroom_pos : 0 < maxHeadroom

inductive WorkSource where
  | poller
  | recovered
  | bored
  deriving DecidableEq

variable (setup : EngineSetup)

abbrev Handler := Fin setup.handlers.length

def EngineSetup.details (h : Handler setup) : TaskTypeDetails := setup.handlers.get h

structure Job where
  handler : Handler setup
  source : WorkSource
  ids : List TaskId

/-- Where the poller is: the loop of `ResourcesAvailable` has read the handlers before `next`. -/
inductive Phase where
  | idle
  | reading (job : Job setup) (next : Nat) (tmp : Available)
  | accepting (job : Job setup) (maxAcceptable : Int)
  | claiming (job : Job setup) (tIDs : List TaskId) (maxAcceptable : Int)
  | claimed (job : Job setup) (tIDs : List TaskId)

structure EngineState where
  current : Nat → Int
  currentThis : Handler setup → Int
  running : List (Handler setup × TaskId)
  storageFailures : Handler setup → KeyMap TaskId Nat
  now : Nat
  phase : Phase setup

inductive EngineAction where
  | tick (duration : Nat)
  | considerWork (handler : Handler setup) (bored : Bool) (ids : List TaskId)
  | recover (handler : Handler setup) (id : TaskId)
  | readActive
  | assertCapacity (hasCapacity : Bool)
  | canAccept (answer : Call (List TaskId))
  | claim (db : Database) (ownerID : MachineId) (locked : List TaskId)
  | claimStorage (granted : List TaskId)
  | finish (handler : Handler setup) (task : TaskId)

variable {setup}

namespace EngineState

variable (state : EngineState setup)

def active (h : Handler setup) : Int := state.current (setup.details h).max

def limit (h : Handler setup) : Int := setup.limits (setup.details h).max

def atMax (h : Handler setup) : Bool := limit h > 0 ∧ state.active h ≥ limit h

def unlimitedHeadroom : Int := 1000000

def headroom (h : Handler setup) : Int :=
  if limit h ≤ 0 then unlimitedHeadroom else limit h - state.active h

def add (h : Handler setup) (n : Int) : EngineState setup :=
  { state with
    current := Function.update state.current (setup.details h).max (state.active h + n)
    currentThis := Function.update state.currentThis h (state.currentThis h + n) }

end EngineState

def Available.use (tmp : Available) (ct : Int) (cost : Resources) : Available :=
  let ramUsed := ct.toNat * cost.ram
  { cpu := tmp.cpu - ct * cost.cpu
    gpu := tmp.gpu - ct * cost.gpu
    ram := if ramUsed ≥ tmp.ram then 0 else tmp.ram - ramUsed }

/-- `%f`: six digits, a half goes to the even one. -/
def fixedText (value : ℚ) : String :=
  let scaled : ℚ := |value| * 10 ^ 6
  let low := ⌊scaled⌋.toNat
  let up := scaled - low > 1 / 2 ∨ (scaled - low = 1 / 2 ∧ low % 2 = 1)
  let millionths := if up then low + 1 else low
  let digits := toString (millionths % 10 ^ 6)
  (if value < 0 then "-" else "") ++ toString (millionths / 10 ^ 6) ++ "." ++
    String.ofList (List.replicate (6 - digits.length) '0') ++ digits

def cpuHeadroom (h : TaskTypeDetails) (r : Available) (headroom : Int) : Int :=
  if h.cost.cpu > 0 ∧ r.cpu.tdiv h.cost.cpu < headroom then r.cpu.tdiv h.cost.cpu else headroom

def ramHeadroom (h : TaskTypeDetails) (r : Available) (headroom : Int) : Int :=
  if h.cost.ram > 0 ∧ ((r.ram / h.cost.ram : Nat) : Int) < headroom then (r.ram / h.cost.ram : Nat)
  else headroom

def gpuHeadroom (h : TaskTypeDetails) (r : Available) (headroom : Int) : Int :=
  if h.cost.gpu > 0 ∧ r.gpu / h.cost.gpu < headroom then ⌊r.gpu / h.cost.gpu⌋ else headroom

/-- `AssertMachineHasCapacity`, after the resources were read. -/
def assertMachineHasCapacity (maxHeadroom : Nat) (h : TaskTypeDetails) (r : Available) (atMax : Bool)
    (hasCapacity : Bool) : Go Int :=
  if atMax = true then fail s!"Did not accept {h.name} task: at max already"
  else if r.cpu - h.cost.cpu < 0 then
    fail (s!"Did not accept {h.name} task: out of cpu: " ++
      s!"required {h.cost.cpu} available {r.cpu})")
  else if h.cost.ram > r.ram then
    fail (s!"Did not accept {h.name} task: out of RAM: " ++
      s!"required {h.cost.ram} available {r.ram})")
  else if r.gpu - h.cost.gpu < 0 then
    fail (s!"Did not accept {h.name} task: out of available GPU: " ++
      s!"required {fixedText h.cost.gpu} available {fixedText r.gpu})")
  else if h.storage = true ∧ hasCapacity = false then
    fail s!"Did not accept {h.name} task: out of available Storage"
  else .ok (gpuHeadroom h r (ramHeadroom h r (cpuHeadroom h r maxHeadroom)))

def storageFailureTimeout : Nat := 3 * 60 * 1000

/-- The answer of `CanAccept` without the tasks whose storage claim failed a short time ago. -/
def withoutFailures (failures : KeyMap TaskId Nat) (now : Nat) (tIDs : List TaskId) : List TaskId :=
  tIDs.filter fun tID =>
    match failures.get tID with
    | none => true
    | some failed => now - failed > storageFailureTimeout

def forgetFailures (failures : KeyMap TaskId Nat) (now : Nat) (tIDs : List TaskId) :
    KeyMap TaskId Nat :=
  failures.removeWhere fun tID failed => tIDs.contains tID && now - failed > storageFailureTimeout

namespace EngineState

def idle (state : EngineState setup) : EngineState setup := { state with phase := .idle }

def considerWork (state : EngineState setup) (job : Job setup) : EngineState setup :=
  if job.ids = [] then state
  else if state.atMax job.handler = true then state
  else
    let resources := setup.resources
    { state with phase := .reading job 0 ⟨resources.cpu, resources.gpu, resources.ram⟩ }

def canAccept (state : EngineState setup) (job : Job setup) (maxAcceptable : Int)
    (answer : Call (List TaskId)) : EngineState setup :=
  match answer with
  | .error _ => state.idle
  | .ok [] => state.idle
  | .ok tIDs =>
    let headroomUntilMax := state.headroom job.handler
    let maxAcceptable := if maxAcceptable > headroomUntilMax then headroomUntilMax
      else maxAcceptable
    let failures := state.storageFailures job.handler
    let left := withoutFailures failures state.now tIDs
    { state with
      storageFailures := Function.update state.storageFailures job.handler
        (forgetFailures failures state.now tIDs)
      -- tasks taken up after a restart are already ours
      phase := if job.source = .recovered then .claimed job left
        else .claiming job left maxAcceptable }

def claim (state : EngineState setup) (job : Job setup) (tIDs : List TaskId) (maxAcceptable : Int)
    (db : Database) (ownerID : MachineId) (locked : List TaskId) : EngineState setup :=
  match db.claim ownerID tIDs locked maxAcceptable.toNat with
  | .error _ => state.idle
  | .ok ([], _) => state.idle
  | .ok (tasksAccepted, _) =>
    { state with
      phase := .claimed job (if tasksAccepted.length ≠ tIDs.length then tasksAccepted else tIDs) }

def claimStorage (state : EngineState setup) (job : Job setup) (tIDs granted : List TaskId) :
    EngineState setup :=
  let needed := (setup.details job.handler).storage
  let goodTIDs := tIDs.filter fun tID => !needed || granted.contains tID
  let failedTIDs := tIDs.filter fun tID => needed && !granted.contains tID
  let failures := failedTIDs.foldl (fun failures tID => failures.put tID state.now)
    (state.storageFailures job.handler)
  let state := { state with
    storageFailures := Function.update state.storageFailures job.handler failures }
  if failedTIDs ≠ [] ∧ goodTIDs = [] then state.idle
  else
    let started := goodTIDs.map fun tID => (job.handler, tID)
    { (state.add job.handler goodTIDs.length).idle with running := state.running ++ started }

def step (state : EngineState setup) : EngineAction setup → Option (EngineState setup)
  | .tick duration => some { state with now := state.now + duration }
  | .considerWork handler bored ids =>
    match state.phase with
    | .idle => some (state.considerWork ⟨handler, if bored then .bored else .poller, ids⟩)
    | _ => none
  | .recover handler id =>
    match state.phase with
    | .idle => some (state.considerWork ⟨handler, .recovered, [id]⟩)
    | _ => none
  | .readActive =>
    match state.phase with
    | .reading job next tmp =>
      if inside : next < setup.handlers.length then
        let t : Handler setup := ⟨next, inside⟩
        some { state with
          phase := .reading job (next + 1) (tmp.use (state.currentThis t) (setup.details t).cost) }
      else none
    | _ => none
  | .assertCapacity hasCapacity =>
    match state.phase with
    | .reading job next tmp =>
      if next < setup.handlers.length then none
      else
        match assertMachineHasCapacity setup.maxHeadroom (setup.details job.handler) tmp
            (state.atMax job.handler) hasCapacity with
        | .error _ => some state.idle
        | .ok headroom => some { state with phase := .accepting job headroom }
    | _ => none
  | .canAccept answer =>
    match state.phase with
    | .accepting job maxAcceptable => some (state.canAccept job maxAcceptable answer)
    | _ => none
  | .claim db ownerID locked =>
    match state.phase with
    | .claiming job tIDs maxAcceptable =>
      some (state.claim job tIDs maxAcceptable db ownerID locked)
    | _ => none
  | .claimStorage granted =>
    match state.phase with
    | .claimed job tIDs => some (state.claimStorage job tIDs granted)
    | _ => none
  | .finish handler task =>
    if (handler, task) ∈ state.running then
      some { state.add handler (-1) with running := state.running.erase (handler, task) }
    else none

def initial : EngineState setup := ⟨fun _ => 0, fun _ => 0, [], fun _ => .empty, 0, .idle⟩

end EngineState

end Curio.Harmony
