import Curio.GoRuntime

/-! What the proving engine knows of its jobs: the types of `cuzk-core/src/types.rs`, the
`ProofAssembler` and `split_batched_proofs` of `cuzk-core/src/pipeline.rs`, and the `JobTracker` of
`cuzk-core/src/engine.rs` with the functions that deliver a result.

Timings, worker states and logs are left out. A call of Rust that returns, returns an `Err` or
panics has the outcomes of a Go call. -/

namespace Curio.Cuzk

open GoRuntime

abbrev JobId := String

inductive ProofKind where
  | poRepSealCommit
  | snapDealsUpdate
  | windowPostPartition
  | winningPost
  deriving DecidableEq

structure ProofRequest where
  jobId : JobId
  proofKind : ProofKind
  registeredProof : UInt64
  vanillaProof : Bytes
  vanillaProofs : List Bytes
  sectorNumber : UInt64
  minerId : UInt64
  randomness : Bytes
  partitionIndex : UInt32
  commROld : Bytes
  commRNew : Bytes
  commDNew : Bytes
  deriving DecidableEq

structure ProofResult where
  jobId : JobId
  proofKind : ProofKind
  proofBytes : Bytes
  deriving DecidableEq

inductive JobStatus where
  | completed (result : ProofResult)
  | failed (message : String)
  deriving DecidableEq

def JobStatus.isCompleted : JobStatus → Bool
  | .completed _ => true
  | .failed _ => false

/-- What `spawn_blocking` gives back. -/
inductive Outcome (α : Type) where
  | ok (value : α)
  | failed (message : String)
  | panicked (message : String)
  deriving DecidableEq

def Outcome.isOk {α : Type} : Outcome α → Bool
  | .ok _ => true
  | .failed _ | .panicked _ => false

/-- The circuits of a request are those that a synthesis of it builds, one for each partition. -/
structure Library (Circuit : Type) where
  circuits : ProofRequest → List Circuit
  verifyPorepProof : Bytes → Bytes → UInt64 → UInt64 → Call Bool

def grothProofBytes : Nat := 192

def splitFrom (proofBytes : Bytes) (offset : Nat) : List Nat → List Bytes
  | [] => []
  | numPartitions :: rest =>
    (proofBytes.drop offset).take (numPartitions * grothProofBytes) ::
      splitFrom proofBytes (offset + numPartitions * grothProofBytes) rest

def splitBatchedProofs (proofBytes : Bytes) (sectorBoundaries : List Nat) :
    Call (List Bytes) :=
  let totalPartitions := sectorBoundaries.sum
  let expectedLen := totalPartitions * grothProofBytes
  if proofBytes.length = expectedLen then .ok (splitFrom proofBytes 0 sectorBoundaries)
  else
    .error (s!"proof bytes length mismatch: got {proofBytes.length}, expected {expectedLen} " ++
      s!"({totalPartitions} partitions × {grothProofBytes} bytes)")

structure ProofAssembler where
  totalPartitions : Nat
  partitions : List (Option Bytes)
  filled : Nat
  deriving DecidableEq

namespace ProofAssembler

def new (totalPartitions : Nat) : ProofAssembler :=
  ⟨totalPartitions, List.replicate totalPartitions none, 0⟩

def insert (a : ProofAssembler) (partitionIdx : Nat) (proofBytes : Bytes) :
    Go ProofAssembler :=
  if proofBytes.length ≠ grothProofBytes then
    panics (s!"proof bytes length mismatch: got {proofBytes.length} expected {grothProofBytes} " ++
      s!"for partition {partitionIdx}")
  else if ¬partitionIdx < a.totalPartitions then
    panics s!"partition {partitionIdx} >= total {a.totalPartitions}"
  else
    match a.partitions[partitionIdx]? with
    | some none =>
      .ok { a with
        partitions := a.partitions.set partitionIdx (some proofBytes)
        filled := a.filled + 1 }
    | some (some _) => panics s!"partition {partitionIdx} already inserted"
    | none => panics "index out of bounds"

def isComplete (a : ProofAssembler) : Bool :=
  a.filled = a.totalPartitions

def joinFrom (i : Nat) : List (Option Bytes) → Go Bytes
  | [] => .ok []
  | none :: _ => panics s!"partition {i} missing"
  | some slot :: rest => do
      let tail ← joinFrom (i + 1) rest
      .ok (slot ++ tail)

def assemble (a : ProofAssembler) : Go Bytes :=
  if a.isComplete then joinFrom 0 a.partitions
  else
    panics (s!"ProofAssembler: cannot assemble, {a.filled}/{a.totalPartitions} " ++
      "partitions filled")

end ProofAssembler

structure PartitionedJobState where
  assembler : ProofAssembler
  request : ProofRequest
  proofKind : ProofKind
  failed : Bool
  deriving DecidableEq

/-- A job that is ready for the GPU. The parent job of a partition is the job of its request. -/
structure SynthesizedJob (Circuit : Type) where
  request : ProofRequest
  synth : List Circuit
  batchRequests : List ProofRequest
  sectorBoundaries : List Nat
  partitionIndex : Option Nat
  deriving DecidableEq

/-- The listeners of a job are numbered in the order in which they came. What they received and
which job a count was made for is kept by the model only. -/
structure JobTracker where
  pending : JobId → Option (List Nat)
  completed : JobId → Option JobStatus
  totalCompleted : Nat
  totalFailed : Nat
  completedByKind : ProofKind → Nat
  failedByKind : ProofKind → Nat
  assemblers : JobId → Option PartitionedJobState
  listeners : JobId → Nat
  received : JobId → List (Nat × JobStatus)
  tally : List (JobId × Bool)

namespace JobTracker

def new : JobTracker :=
  ⟨fun _ => none, fun _ => none, 0, 0, fun _ => 0, fun _ => 0, fun _ => none, fun _ => 0,
    fun _ => [], []⟩

variable (t : JobTracker)

def recordCompletion (jobId : JobId) (kind : ProofKind) : JobTracker :=
  { t with
    totalCompleted := t.totalCompleted + 1
    completedByKind := Function.update t.completedByKind kind (t.completedByKind kind + 1)
    tally := t.tally ++ [(jobId, true)] }

def recordFailure (jobId : JobId) (kind : ProofKind) : JobTracker :=
  { t with
    totalFailed := t.totalFailed + 1
    failedByKind := Function.update t.failedByKind kind (t.failedByKind kind + 1)
    tally := t.tally ++ [(jobId, false)] }

def record (jobId : JobId) (kind : ProofKind) : JobStatus → JobTracker
  | .completed _ => t.recordCompletion jobId kind
  | .failed _ => t.recordFailure jobId kind

def send (jobId : JobId) (status : JobStatus) : JobTracker :=
  match t.pending jobId with
  | none => t
  | some senders =>
    { t with
      pending := Function.update t.pending jobId none
      received := Function.update t.received jobId
        (t.received jobId ++ senders.map fun sender => (sender, status)) }

/-- The end of every exit: the count, the senders and the entry for those who ask later. -/
def finish (jobId : JobId) (kind : ProofKind) (status : JobStatus) : JobTracker :=
  let told := (t.record jobId kind status).send jobId status
  { told with completed := Function.update told.completed jobId (some status) }

def listen (jobId : JobId) : JobTracker :=
  { t with
    pending := Function.update t.pending jobId
      (some ((t.pending jobId).getD [] ++ [t.listeners jobId]))
    listeners := Function.update t.listeners jobId (t.listeners jobId + 1) }

/-- A caller who asks for an unknown job gets an error and is no listener. -/
def awaitProof (jobId : JobId) : JobTracker :=
  match t.completed jobId with
  | some status =>
    { t with
      listeners := Function.update t.listeners jobId (t.listeners jobId + 1)
      received := Function.update t.received jobId
        (t.received jobId ++ [(t.listeners jobId, status)]) }
  | none => if (t.pending jobId).isSome then t.listen jobId else t

def hasFailed (jobId : JobId) : Bool :=
  ((t.assemblers jobId).map PartitionedJobState.failed).getD false

def setAssembler (jobId : JobId) (state : Option PartitionedJobState) : JobTracker :=
  { t with assemblers := Function.update t.assemblers jobId state }

/-- The exits of a failed or panicked partition synthesis or GPU prove. -/
def failPartition (jobId : JobId) (kind : ProofKind) (message : String) : JobTracker :=
  match t.assemblers jobId with
  | none => t
  | some state =>
    if state.failed then t
    else
      (t.setAssembler jobId (some { state with failed := true })).finish jobId kind
        (.failed message)

variable {Circuit : Type} (lib : Library Circuit)

def selfCheck (kind : ProofKind) (req : ProofRequest) (proofBytes : Bytes) : Bool :=
  if kind = .poRepSealCommit then
    match lib.verifyPorepProof req.vanillaProof proofBytes req.sectorNumber req.minerId with
    | .ok passed => passed
    | .error _ => false
  else true

def checked (kind : ProofKind) (req : ProofRequest) (proofBytes : Bytes)
    (message : String) : JobStatus :=
  if selfCheck lib kind req proofBytes then .completed ⟨req.jobId, kind, proofBytes⟩
  else .failed message

/-- A panic of the assembler ends the task with what it had changed. -/
def processPartitionResult (result : Outcome Bytes) (parentId : JobId) (pIdx : Nat)
    (kind : ProofKind) : JobTracker :=
  match result with
  | .ok proofBytes =>
    match t.assemblers parentId with
    | none => t
    | some state =>
      if state.failed then t
      else
        match state.assembler.insert pIdx proofBytes with
        | .error _ => t
        | .ok assembler =>
          if assembler.isComplete then
            let removed := t.setAssembler parentId none
            match assembler.assemble with
            | .error _ => removed
            | .ok finalProof =>
              removed.finish parentId state.proofKind
                (checked lib state.proofKind state.request finalProof
                  ("PoRep proof self-check failed: assembled proof did not verify " ++
                    s!"(sector={state.request.sectorNumber}, " ++
                    s!"miner={state.request.minerId})"))
          else t.setAssembler parentId (some { state with assembler := assembler })
  | .failed e => t.failPartition parentId kind s!"partition {pIdx} GPU prove failed: {e}"
  | .panicked e => t.failPartition parentId kind s!"partition {pIdx} GPU task panicked: {e}"

def finishAll (kind : ProofKind) (t : JobTracker) :
    List (ProofRequest × JobStatus) → JobTracker
  | [] => t
  | (req, status) :: rest => finishAll kind (t.finish req.jobId kind status) rest

def batchStatus (kind : ProofKind) (req : ProofRequest) (i : Nat) (sectorProof : Bytes) :
    JobStatus :=
  checked lib kind req sectorProof
    (s!"PoRep proof self-check failed: batched proof {i} did not verify " ++
      s!"(sector={req.sectorNumber}, miner={req.minerId})")

def batchStatuses (kind : ProofKind) :
    Nat → List Bytes → List ProofRequest → List (ProofRequest × JobStatus)
  | i, sectorProof :: proofs, req :: requests =>
    (req, batchStatus lib kind req i sectorProof) :: batchStatuses kind (i + 1) proofs requests
  | _, [], _ | _, _, [] => []

end JobTracker

namespace SynthesizedJob

variable {Circuit : Type} (lib : Library Circuit) (job : SynthesizedJob Circuit)

def members : List ProofRequest :=
  if job.batchRequests = [] then [job.request] else job.batchRequests

def failAll (t : JobTracker) (message : String) : JobTracker :=
  t.finishAll job.request.proofKind (job.members.map fun req => (req, .failed message))

def processMonolithicResult (t : JobTracker) (result : Outcome Bytes) : JobTracker :=
  match result with
  | .ok proofBytes =>
    if job.batchRequests = [] then
      t.finish job.request.jobId job.request.proofKind
        (JobTracker.checked lib job.request.proofKind job.request proofBytes
          "PoRep proof self-check failed: pipeline single-sector proof did not verify")
    else
      match splitBatchedProofs proofBytes job.sectorBoundaries with
      | .ok perSectorProofs =>
        t.finishAll job.request.proofKind
          (JobTracker.batchStatuses lib job.request.proofKind 0 perSectorProofs job.batchRequests)
      | .error e => job.failAll t s!"proof split failed: {e}"
  | .failed e => job.failAll t e
  | .panicked e => job.failAll t s!"GPU task panicked: {e}"

end SynthesizedJob

end Curio.Cuzk
