import Curio.Cuzk.JobTracker
import Curio.StepMachine

/-! The pipeline of the proving engine: `cuzk-core/src/batch_collector.rs` and the tasks that
`Engine::start` of `cuzk-core/src/engine.rs` spawns, with `process_batch`.

The tasks are the steps of one machine. What a step works on is an item of work that it takes up
whole and passes on; the order between items is free, as their queues, their workers and the waits
for memory leave it. A `PriorityWorkQueue` holds one item under a key. The outcomes of synthesis and
of the GPU are chosen from outside. -/

namespace Curio.Cuzk

/-- A batch has a first request. -/
structure ProofBatch where
  proofKind : ProofKind
  first : ProofRequest
  others : List ProofRequest
  firstReceivedAt : Nat
  deriving DecidableEq

def ProofBatch.requests (batch : ProofBatch) : List ProofRequest :=
  batch.first :: batch.others

def ProofBatch.single (request : ProofRequest) (now : Nat) : ProofBatch :=
  ⟨request.proofKind, request, [], now⟩

structure BatchConfig where
  maxBatchSize : Nat
  maxBatchWaitMs : Nat

def isBatchable (kind : ProofKind) : Bool :=
  kind = .poRepSealCommit ∨ kind = .snapDealsUpdate

structure BatchCollector where
  config : BatchConfig
  pending : Option ProofBatch

namespace BatchCollector

def requests (c : BatchCollector) : List ProofRequest :=
  (c.pending.map ProofBatch.requests).getD []

def add (c : BatchCollector) (request : ProofRequest) (now : Nat) :
    Option ProofBatch × BatchCollector :=
  match c.pending with
  | some batch =>
    if batch.proofKind = request.proofKind then
      let grown := { batch with others := batch.others ++ [request] }
      if c.config.maxBatchSize ≤ grown.requests.length then
        (some grown, { c with pending := none })
      else (none, { c with pending := some grown })
    else (some batch, { c with pending := some (.single request now) })
  | none =>
    if c.config.maxBatchSize ≤ 1 then (some (.single request now), { c with pending := none })
    else (none, { c with pending := some (.single request now) })

def checkTimeout (c : BatchCollector) (now : Nat) : Option ProofBatch × BatchCollector :=
  match c.pending with
  | some batch =>
    if c.config.maxBatchWaitMs ≤ now - batch.firstReceivedAt then
      (some batch, { c with pending := none })
    else (none, c)
  | none => (none, c)

def forceFlush (c : BatchCollector) : Option ProofBatch × BatchCollector :=
  (c.pending, { c with pending := none })

/-- The batches that a request from the scheduler sets off. -/
def route (c : BatchCollector) (request : ProofRequest) (now : Nat) :
    List ProofBatch × BatchCollector :=
  if isBatchable request.proofKind ∧ 1 < c.config.maxBatchSize then
    ((c.add request now).1.toList, (c.add request now).2)
  else (c.forceFlush.1.toList ++ [.single request now], c.forceFlush.2)

end BatchCollector

structure PartitionWorkItem where
  request : ProofRequest
  partitionIdx : Nat
  deriving DecidableEq

inductive Work (Circuit : Type) where
  /-- In the scheduler. -/
  | submitted (request : ProofRequest)
  /-- With `process_batch`. -/
  | dispatched (batch : ProofBatch)
  /-- In the queue of the partition dispatcher. -/
  | queued (jobSeq : UInt64) (item : PartitionWorkItem)
  /-- With a synthesis worker. -/
  | handed (jobSeq : UInt64) (item : PartitionWorkItem)
  /-- In the queue of the GPU workers. -/
  | synthesized (jobSeq : UInt64) (job : SynthesizedJob Circuit)
  /-- With a GPU worker, before the start. -/
  | picked (job : SynthesizedJob Circuit)
  /-- With a finalizer. -/
  | started (job : SynthesizedJob Circuit)
  deriving DecidableEq

inductive WorkQueue where
  | synthWorkQueue
  | gpuWorkQueue
  deriving DecidableEq

/-- The queue that an item waits in, and its key `(job_seq, partition_idx)` there. -/
def Work.key {Circuit : Type} : Work Circuit → Option (WorkQueue × UInt64 × Nat)
  | .queued jobSeq item => some (.synthWorkQueue, jobSeq, item.partitionIdx)
  | .synthesized jobSeq job => some (.gpuWorkQueue, jobSeq, job.partitionIndex.getD 0)
  | _ => none

/-- The lists of requests and results are kept by the model only. A job is troubled when a
synthesis, a GPU start or a GPU finish that it had a part in went wrong. -/
structure Engine (Circuit : Type) where
  tracker : JobTracker
  collector : BatchCollector
  work : List (Work Circuit)
  nextJobSeq : UInt64
  stopped : Bool
  submitted : List ProofRequest
  taken : List ProofRequest
  dispatched : List ProofRequest
  split : JobId → Bool
  troubled : JobId → Bool
  arrived : JobId → List (Nat × List UInt8)

inductive Action (Circuit : Type) where
  | submit (request : ProofRequest)
  | awaitProof (jobId : JobId)
  | next (request : ProofRequest) (now : Nat)
  | timeout (now : Nat)
  | shutdown
  | process (batch : ProofBatch) (outcome : Outcome Unit)
  | hand (jobSeq : UInt64) (item : PartitionWorkItem)
  | synthesize (jobSeq : UInt64) (item : PartitionWorkItem) (outcome : Outcome Unit)
  | pick (jobSeq : UInt64) (job : SynthesizedJob Circuit)
  | start (job : SynthesizedJob Circuit) (outcome : Outcome Unit)
  | finish (job : SynthesizedJob Circuit) (outcome : Outcome (List UInt8))

namespace Engine

variable {Circuit : Type}

def new (config : BatchConfig) : Engine Circuit :=
  ⟨.new, ⟨config, none⟩, [], 0, false, [], [], [], fun _ => false, fun _ => false, fun _ => []⟩

section Lists

variable (e : Engine Circuit)

def put (items : List (Work Circuit)) : Engine Circuit :=
  { e with work := items ++ e.work }

/-- `PriorityWorkQueue::push`: the insertion drops what waits under the same key. -/
def push (item : Work Circuit) : Engine Circuit :=
  { e with work := item :: e.work.filter fun other => other.key ≠ item.key }

def track (tracker : JobTracker) : Engine Circuit :=
  { e with tracker := tracker }

def trouble (requests : List ProofRequest) : Engine Circuit :=
  { e with
    troubled := fun jobId => (requests.any fun req => req.jobId = jobId) || e.troubled jobId }

/-- `dispatch_batch` of what the collector lets go. -/
def flush (left : List ProofBatch × BatchCollector) : Engine Circuit :=
  ({ e with
      collector := left.2
      dispatched := e.dispatched ++ left.1.flatMap ProofBatch.requests } : Engine Circuit).put
    (left.1.map .dispatched)

end Lists

section Processing

variable (lib : Library Circuit) (e : Engine Circuit)

def isPartitioned (batch : ProofBatch) : Bool :=
  isBatchable batch.proofKind ∧ batch.others = []

def parseContext (kind : ProofKind) : String :=
  if kind = .poRepSealCommit then "C1" else "SnapDeals"

def register (req : ProofRequest) : Engine Circuit :=
  let numPartitions := (lib.circuits req).length
  { e with
    tracker := e.tracker.setAssembler req.jobId
      (some ⟨.new numPartitions, req, req.proofKind, false⟩)
    nextJobSeq := e.nextJobSeq + 1
    split := Function.update e.split req.jobId true }

def partitionItems (req : ProofRequest) : List PartitionWorkItem :=
  (List.range (lib.circuits req).length).map fun partitionIdx => ⟨req, partitionIdx⟩

def processPartitioned (req : ProofRequest) (outcome : Outcome Unit) : Engine Circuit :=
  match outcome with
  | .ok _ => ((partitionItems lib req).map (.queued e.nextJobSeq)).foldl push (e.register lib req)
  | .failed message =>
    (e.trouble [req]).track (e.tracker.finish req.jobId req.proofKind
      (.failed s!"{parseContext req.proofKind} parse failed: {message}"))
  | .panicked message =>
    (e.trouble [req]).track (e.tracker.finish req.jobId req.proofKind
      (.failed s!"{parseContext req.proofKind} parse panicked: {message}"))

def isMultiSector (batch : ProofBatch) : Bool :=
  batch.proofKind = .poRepSealCommit ∧ batch.others ≠ []

def synthesizeBatch (batch : ProofBatch) : SynthesizedJob Circuit where
  request := batch.first
  synth :=
    if isMultiSector batch then batch.requests.flatMap lib.circuits else lib.circuits batch.first
  batchRequests := if batch.others = [] then [] else batch.requests
  sectorBoundaries :=
    if isMultiSector batch then batch.requests.map fun req => (lib.circuits req).length else []
  partitionIndex := none

def failBatch (batch : ProofBatch) (message : String) : Engine Circuit :=
  (e.trouble batch.requests).track (e.tracker.finishAll batch.proofKind
    (batch.requests.map fun req => (req, .failed message)))

def processBatch (batch : ProofBatch) (outcome : Outcome Unit) : Engine Circuit :=
  if isPartitioned batch then e.processPartitioned lib batch.first outcome
  else
    match outcome with
    | .ok _ => e.push (.synthesized 0 (synthesizeBatch lib batch))
    | .failed message => e.failBatch batch s!"synthesis failed: {message}"
    | .panicked message => e.failBatch batch s!"synthesis panicked: {message}"

def synthesizePartition (item : PartitionWorkItem) : SynthesizedJob Circuit :=
  ⟨item.request, ((lib.circuits item.request)[item.partitionIdx]?).toList, [], [],
    some item.partitionIdx⟩

def synthesize (jobSeq : UInt64) (item : PartitionWorkItem) (outcome : Outcome Unit) :
    Engine Circuit :=
  let req := item.request
  match outcome with
  | .ok _ => e.push (.synthesized jobSeq (synthesizePartition lib item))
  | .failed message =>
    (e.trouble [req]).track (e.tracker.failPartition req.jobId req.proofKind
      s!"partition {item.partitionIdx} synthesis failed: {message}")
  | .panicked message =>
    (e.trouble [req]).track (e.tracker.failPartition req.jobId req.proofKind
      s!"partition {item.partitionIdx} synthesis panicked: {message}")

/-- The requests that a failure of the job is a trouble of. -/
def affected (job : SynthesizedJob Circuit) : List ProofRequest :=
  if job.partitionIndex.isSome then [job.request] else job.members

/-- The exits of a failed GPU start know one job only, and not whether it has failed before. -/
def failStart (job : SynthesizedJob Circuit) (message : String) : Engine Circuit :=
  (e.trouble (affected job)).track
    (e.tracker.finish job.request.jobId job.request.proofKind (.failed message))

def start (job : SynthesizedJob Circuit) (outcome : Outcome Unit) : Engine Circuit :=
  match outcome with
  | .ok _ => e.put [.started job]
  | .failed message => e.failStart job message
  | .panicked message => e.failStart job s!"GPU start panicked: {message}"

def note (req : ProofRequest) (pIdx : Nat) : Outcome (List UInt8) → Engine Circuit
  | .ok proofBytes =>
    { e with
      arrived := Function.update e.arrived req.jobId (e.arrived req.jobId ++ [(pIdx, proofBytes)]) }
  | .failed _ | .panicked _ => e.trouble [req]

def noteAll (requests : List ProofRequest) : Outcome (List UInt8) → Engine Circuit
  | .ok _ => e
  | .failed _ | .panicked _ => e.trouble requests

def finish (job : SynthesizedJob Circuit) (outcome : Outcome (List UInt8)) : Engine Circuit :=
  let req := job.request
  match job.partitionIndex with
  | some pIdx =>
    (e.note req pIdx outcome).track
      (e.tracker.processPartitionResult lib outcome req.jobId pIdx req.proofKind)
  | none =>
    (e.noteAll job.members outcome).track (job.processMonolithicResult lib e.tracker outcome)

def skips (job : SynthesizedJob Circuit) : Bool :=
  job.partitionIndex.isSome && e.tracker.hasFailed job.request.jobId

end Processing

variable [DecidableEq Circuit] (lib : Library Circuit) (e : Engine Circuit)

def remove (item : Work Circuit) : Engine Circuit :=
  { e with work := e.work.erase item }

def takeUp (item : Work Circuit) (next : Engine Circuit) : Option (Engine Circuit) :=
  if item ∈ e.work then some next else none

def step : Action Circuit → Option (Engine Circuit)
  | .submit request =>
    some (({ e with
      tracker := e.tracker.listen request.jobId
      submitted := e.submitted ++ [request] } : Engine Circuit).put [.submitted request])
  | .awaitProof jobId => some (e.track (e.tracker.awaitProof jobId))
  | .next request now =>
    if e.stopped then none
    else
      e.takeUp (.submitted request)
        (({ e.remove (.submitted request) with taken := e.taken ++ [request] } :
          Engine Circuit).flush (e.collector.route request now))
  | .timeout now =>
    if e.stopped then none
    else
      some (e.flush ((e.collector.checkTimeout now).1.toList, (e.collector.checkTimeout now).2))
  | .shutdown =>
    some { e.flush (e.collector.forceFlush.1.toList, e.collector.forceFlush.2) with
      stopped := true }
  | .process batch outcome =>
    e.takeUp (.dispatched batch) ((e.remove (.dispatched batch)).processBatch lib batch outcome)
  | .hand jobSeq item =>
    e.takeUp (.queued jobSeq item)
      (if e.tracker.hasFailed item.request.jobId then e.remove (.queued jobSeq item)
      else (e.remove (.queued jobSeq item)).put [.handed jobSeq item])
  | .synthesize jobSeq item outcome =>
    e.takeUp (.handed jobSeq item)
      ((e.remove (.handed jobSeq item)).synthesize lib jobSeq item outcome)
  | .pick jobSeq job =>
    e.takeUp (.synthesized jobSeq job)
      (if e.skips job then e.remove (.synthesized jobSeq job)
      else (e.remove (.synthesized jobSeq job)).put [.picked job])
  | .start job outcome =>
    e.takeUp (.picked job) ((e.remove (.picked job)).start job outcome)
  | .finish job outcome =>
    e.takeUp (.started job) ((e.remove (.started job)).finish lib job outcome)

end Engine

end Curio.Cuzk
