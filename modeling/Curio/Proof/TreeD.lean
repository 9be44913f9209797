import Curio.Proof.CachedProof
import Curio.Proof.TreeDLayout
import Curio.StepMachine

/-! `BuildTreeD` of `lib/proof/treed_build.go` as a step function: the dispatcher that reads chunks
into worker buffers, the goroutines that hash a chunk and write its levels, and the apex that is
hashed and written once all of them are done. Which goroutine moves next is left to the run. -/

namespace Curio.Proof

open GoRuntime BinaryMerkle FileWrites

/-- The sizes of the buffers from the bottom one up to a level of 32 bytes. -/
def levelSizes (size : Nat) : List Nat :=
  if _large : 32 < size then size :: levelSizes (size / 2) else [size]
termination_by size

def poolBuffers (stale : Nat → Nat → Node) (size : Nat) : List (List Node) :=
  (levelSizes size).mapIdx (fun level bytes => (List.range (bytes / nodeSize)).map (stale level))

def maxThreads (size numCPU : Nat) : Nat :=
  (max (min (int64 size / threadChunkSize) (numCPU * 15 / 10)) 1).toNat

def toNodes (bytes : Bytes) : List Node :=
  (List.range (bytes.length / nodeSize)).map (fun i =>
    Vector.ofFn (fun j => bytes.getD (nodeSize * i + j.val) 0))

/-- A chunk worker. It holds what was read and the levels above it, then the hashed levels that
are not in the apex yet, then those whose layers from `layer` on are not written yet. -/
inductive Job where
  | loaded (startOffset : Nat) (raw : Bytes) (upper : List (List Node))
  | hashed (startOffset : Nat) (levels : List (List Node))
  | writing (startOffset layer offsetInLayer : Nat) (levels : List (List Node))

inductive Phase (Cid : Type) where
  | dispatching
  | apex (threadLayers apexLayer : Nat)
  | returned (result : Go Cid)

structure TreeDCall (Cid : Type) where
  ext : Externals
  unpaddedData : Bool
  size : Nat
  dataCommitmentV1ToCID : Node → Call Cid
  multierror : List String → String

/-- `out` is the file, `writes` records every `WriteAt` that went through. -/
structure TreeD (Cid : Type) where
  data : Stream
  processed : Nat
  workerBuffers : List (List (List Node))
  jobs : List Job
  apexBuf : List (List Node)
  out : Bytes
  writes : List (Write UInt8)
  oerr : List String
  phase : Phase Cid

variable {Cid : Type} (call : TreeDCall Cid)

/-- Everything up to the processing loop. `pool.Get` of a negative length panics. -/
def TreeDCall.setup (maxThreads : Nat) (stale : Nat → Nat → Nat → Node) (data : Stream) :
    Go (TreeD Cid) :=
  let outSize := binTreeSize call.size
  let bottomBufSize := min (threadChunkSize : Int) (int64 call.size)
  if int64 outSize < 0 then fail "truncate: invalid argument"
  else if bottomBufSize < 0 then panics "makeslice: len out of range"
  else do
    let workerBuffers :=
      (List.range maxThreads).map (fun i => poolBuffers (stale i) bottomBufSize.toNat)
    let first ← readAt workerBuffers 0
    let bottom ← readAt first 0
    if bottom.length = 0 then panics "integer divide by zero"
    else
      let apexBottomSize := max (call.size / (nodeSize * bottom.length)) 1
      .ok {
        data := data
        processed := 0
        workerBuffers := workerBuffers
        jobs := []
        apexBuf := poolBuffers (stale maxThreads) (apexBottomSize * nodeSize)
        out := List.replicate outSize 0
        writes := []
        oerr := []
        phase := .dispatching }

variable (state : TreeD Cid)

def TreeD.stop (result : Go Cid) : TreeD Cid :=
  { state with phase := .returned result }

def TreeD.writeAt (offset : Nat) (data : Bytes) : TreeD Cid :=
  { state with
    out := overwrite 0 state.out offset data
    writes := ⟨offset, data⟩ :: state.writes }

/-- `io.ReadFull` into the bottom buffer, where an end of the data before the first byte passes
for a full read and leaves the buffer as it is. -/
def readChunk (data : Stream) (buffer : Bytes) : Go (Bytes × Stream) :=
  if data.bytes.isEmpty ∧ data.failure.isNone then .ok (buffer, data)
  else do
    let read ← readFull data buffer.length
    .ok (read, ⟨data.bytes.drop buffer.length, data.failure⟩)

def TreeDCall.dispatch (workBuffer : List (List Node)) : TreeD Cid :=
  if state.oerr ≠ [] then state.stop (fail (call.multierror state.oerr))
  else
    let bottom := workBuffer.headD []
    let processedSize := nodeSize * bottom.length
    let length := if call.unpaddedData then call.ext.unpadded processedSize else processedSize
    match readChunk state.data ((nodeBytes bottom).take length) with
    | .error fault => state.stop (.error fault)
    | .ok (raw, data) =>
      { state with
        data := data
        processed := state.processed + processedSize
        jobs := state.jobs ++ [.loaded state.processed raw workBuffer.tail] }

def persistApex (apexBuf : List (List Node)) (startOffset : Nat) (levels : List (List Node)) :
    Go (List (List Node)) := do
  let bottom ← readAt levels 0
  let top ← readAt levels (levels.length - 1)
  let apexHash ← readAt top 0
  let row ← readAt apexBuf 0
  let row ← writeAt row (startOffset / (nodeSize * bottom.length)) apexHash
  writeAt apexBuf 0 row

def TreeDCall.leaves (raw : Bytes) : List Node :=
  if call.unpaddedData then call.ext.fr32Pad raw else toNodes raw

/-- The next thing worker `k` does. A panic in it ends the call; a failed `WriteAt` ends the worker,
which then keeps its buffer. -/
def TreeDCall.work (k : Nat) (writeError : Option String) : Job → TreeD Cid
  | .loaded startOffset raw upper =>
    match hashChunk call.ext (call.leaves raw :: upper) with
    | .error fault => state.stop (.error fault)
    | .ok levels => { state with jobs := state.jobs.set k (.hashed startOffset levels) }
  | .hashed startOffset levels =>
    match persistApex state.apexBuf startOffset levels with
    | .error fault => state.stop (.error fault)
    | .ok apexBuf =>
      { state with
        apexBuf := apexBuf
        jobs := state.jobs.set k (.writing startOffset 0 startOffset levels) }
  | .writing startOffset layer offsetInLayer levels =>
    match levels[layer]? with
    | none =>
      { state with
        workerBuffers := state.workerBuffers ++ [levels]
        jobs := state.jobs.eraseIdx k }
    | some layerData =>
      match layerOffset call.size layer, writeError with
      | .error fault, _ => state.stop (.error fault)
      | .ok _, some message =>
        { state with
          oerr := state.oerr ++ [message]
          jobs := state.jobs.eraseIdx k }
      | .ok layerOff, none =>
        { state.writeAt (offsetInLayer + layerOff) (nodeBytes layerData) with
          jobs := state.jobs.set k (.writing startOffset (layer + 1) (offsetInLayer / 2) levels) }

/-- Behind `workWg.Wait()`: the apex is hashed. -/
def TreeDCall.join : TreeD Cid :=
  if state.oerr ≠ [] then state.stop (fail (call.multierror state.oerr))
  else
    let hashed : Go (Nat × List (List Node)) := do
      let first ← readAt state.workerBuffers 0
      let bottom ← readAt first 0
      let apexBuf ← hashChunk call.ext state.apexBuf
      .ok (bottom.length.size, apexBuf)
    match hashed with
    | .error fault => state.stop (.error fault)
    | .ok (threadLayers, apexBuf) =>
      { state with apexBuf := apexBuf, phase := .apex threadLayers 1 }

def TreeDCall.writeApex (threadLayers apexLayer : Nat) (writeError : Option String) : TreeD Cid :=
  match state.apexBuf[apexLayer]? with
  | some layerData =>
    match layerOffset call.size (apexLayer + threadLayers - 1), writeError with
    | .error fault, _ => state.stop (.error fault)
    | .ok _, some message => state.stop (fail ("write apex: " ++ message))
    | .ok layerOff, none =>
      { state.writeAt layerOff (nodeBytes layerData) with
        phase := .apex threadLayers (apexLayer + 1) }
  | none =>
    let commp : Go Node := do
      let top ← readAt state.apexBuf (state.apexBuf.length - 1)
      readAt top 0
    state.stop (commp >>= fun root => ofCall (call.dataCommitmentV1ToCID root))

/-- What can happen next: the dispatcher finds no buffer, or takes one; worker `job` goes on; all
workers are done; the apex is written. A `WriteAt` may fail. -/
inductive Move where
  | retry
  | dispatch
  | work (job : Nat) (writeError : Option String)
  | join
  | writeApex (writeError : Option String)

def TreeDCall.step (move : Move) : Option (TreeD Cid) :=
  match move, state.phase with
  | .retry, .dispatching =>
    if state.processed < call.size ∧ state.workerBuffers = [] then some state else none
  | .dispatch, .dispatching =>
    if state.processed < call.size then
      state.workerBuffers.getLast?.map (fun workBuffer =>
        call.dispatch { state with workerBuffers := state.workerBuffers.dropLast } workBuffer)
    else none
  | .work k writeError, .dispatching => state.jobs[k]?.map (call.work state k writeError)
  | .join, .dispatching =>
    if call.size ≤ state.processed ∧ state.jobs.isEmpty then some (call.join state) else none
  | .writeApex writeError, .apex threadLayers apexLayer =>
    some (call.writeApex state threadLayers apexLayer writeError)
  | _, _ => none

end Curio.Proof
