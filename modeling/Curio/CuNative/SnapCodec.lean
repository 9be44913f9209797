import Curio.CuNative.DecodeSdr

/-! `encode_snap.go` and `decode_snap.go`: deal data is encoded into a sector key with one rho for
each range of nodes, and decoded with the inverse rhos.

Seal proof types, CIDs and the Poseidon hash come from other libraries; they are parameters. -/

namespace Curio.CuNative

open ByteCodec Entries GoRuntime OrderedPipeline
open Curio.Proof (nodeSize)

/-- `SectorSize`, the CID conversions of `commcid`, and the Poseidon hash of two integers with its
constants for snap deals. -/
structure SnapLib (Proof Cid : Type) where
  sectorSize : Proof → Call Nat
  cidToDataCommitmentV1 : Cid → Call Bytes
  cidToReplicaCommitmentV1 : Cid → Call Bytes
  genPoseidonConstants : Call Unit
  poseidonHash : Nat → Nat → Call Nat

section Rhos

variable {Proof Cid : Type} (lib : SnapLib Proof Cid)

/-- `fr.LittleEndian.PutElement` -/
def ffElementBytesLE (element : Fr) : Bytes := leBytes 32 element.val

def bigIntLE (bytes : Bytes) : Nat := leValue bytes

def phi (commDNew commROld : Bytes) : Go Bytes := do
  ofCall lib.genPoseidonConstants
  let h ← wrap "failed to compute Poseidon hash"
    (ofCall (lib.poseidonHash (bigIntLE commDNew) (bigIntLE commROld)))
  return ffElementBytesLE (h : Fr)

def rho (phi : Bytes) (high : UInt32) : Go Fr := do
  ofCall lib.genPoseidonConstants
  let h ← ofCall (lib.poseidonHash (bigIntLE phi) high.toNat)
  return (h : Fr)

/-- Precomputed rho values by the high bits of the node index. -/
structure Rhos where
  rhos : KeyMap Nat Bytes
  bitsShr : Nat

/-- A key that is not in the map gives the zero value. -/
def Rhos.get (r : Rhos) (offset : Nat) : Bytes :=
  (r.rhos.get (offset >>> r.bitsShr)).getD (List.replicate 32 0)

def calcBitsShr (h nodesCount : Nat) : Nat :=
  let nodeIndexBitLen := trailingZeros nodesCount
  uint64 (nodeIndexBitLen - h)

def calcHighRange (offset num bitsShr : Nat) : Nat × Nat :=
  (offset >>> bitsShr, uint64 (offset + num - 1) >>> bitsShr)

/-- The loop of `NewRange` and `NewInvRange` over the highs; they differ in what is stored. -/
def rhoTable (store : Fr → Fr) (phi : Bytes) (h nodesCount offset num : Nat) : Go Rhos := do
  let bitsShr := calcBitsShr h nodesCount
  let (start, last) := calcHighRange offset num bitsShr
  let rhos ← (List.range' start (last + 1 - start)).foldlM (fun rhos high => do
    let rhoVal ← rho lib phi (UInt32.ofNat high)
    return rhos.put high (ffElementBytesLE (store rhoVal))) KeyMap.empty
  return { rhos, bitsShr }

def newRange (phi : Bytes) (h nodesCount offset num : Nat) : Go Rhos :=
  rhoTable lib id phi h nodesCount offset num

/-- `Inverse` gives zero for zero. -/
def newInvRange (phi : Bytes) (h nodesCount offset num : Nat) : Go Rhos :=
  rhoTable lib (fun rhoVal => rhoVal⁻¹) phi h nodesCount offset num

def new (phi : Bytes) (h nodesCount : Nat) : Go Rhos :=
  newRange lib phi h nodesCount 0 nodesCount

def newInv (phi : Bytes) (h nodesCount : Nat) : Go Rhos :=
  newInvRange lib phi h nodesCount 0 nodesCount

def hDefault (nodesCount : Nat) : Nat :=
  let nodes32KiB := 32 * 1024 / nodeSize
  if nodesCount ≤ nodes32KiB then 1 else 10

end Rhos

/-- What `pool.Get(size)` hands out for the result of a chunk. -/
structure OutPool where
  get : Nat → Nat → Bytes
  length_get : ∀ chunkID size, (get chunkID size).length = size

def rhoBytes (rhos : Rhos) (chunkID nodeCount : Nat) : Bytes :=
  let startNode := chunkID * bufSz % 2 ^ 64 / nodeSize
  (List.range nodeCount).flatMap fun i => rhos.get ((startNode + i) % 2 ^ 64)

/-- A worker of `EncodeSnap` or `DecodeSnap` around its C loop; the address of the first byte of an
empty buffer panics. -/
def snapWorker (loop : Bytes → Bytes → Bytes → Nat → Bytes) (outs : OutPool)
    (rhos : Rhos) (chunkID : Nat) (j : Job) : Option Bytes :=
  let nodeCount := j.size / nodeSize
  if nodeCount = 0 then none
  else
    let obuf := outs.get chunkID j.size
    some (overlay (loop j.rbuf j.kbuf (rhoBytes rhos chunkID nodeCount) nodeCount) obuf)

def snapEncodeLoop (key data rhos : Bytes) (nodeCount : Nat) : Bytes :=
  nodeLoop (fun i keyNode dataNode => blstFrFromUint64 keyNode +
    blstFrFromUint64 dataNode * blstFrFromUint64 (nodeAt rhos i)) nodeCount key data

def snapDecodeLoop (replica key rhoInvs : Bytes) (nodeCount : Nat) : Bytes :=
  nodeLoop (fun i replicaNode keyNode => (blstFrFromUint64 replicaNode -
    blstFrFromUint64 keyNode) * blstFrFromUint64 (nodeAt rhoInvs i)) nodeCount replica key

def workerEnc : OutPool → Rhos → Nat → Job → Option Bytes := snapWorker snapEncodeLoop

def workerSnap : OutPool → Rhos → Nat → Job → Option Bytes := snapWorker snapDecodeLoop

variable {Proof Cid : Type} (lib : SnapLib Proof Cid)

def resultBufDepth : Nat := 16

/-- What a call of `EncodeSnap` or `DecodeSnap` finds around it: the contents of the pooled buffers
and the answers of `out.Write`. -/
structure SnapEnv where
  pool : Pool
  outs : OutPool
  write : Nat → Option (Nat × IoError)

/-- The goroutines of `EncodeSnap` and `DecodeSnap`, once the rhos are there. A `jobEnc` has the
key where the other jobs have the replica, and the data where they have the key. -/
def snapPipeline (numCPU : Nat) (env : SnapEnv) (work : Nat → Job → Option Bytes)
    (first second : Source) : Pipeline Job UInt8 IoError :=
  let workers := if numCPU < nWorkers numCPU then numCPU else nWorkers numCPU
  { jobs := jobsOf env.pool (readPairs bufSz first second).1
    ending := (readPairs bufSz first second).2
    work := work
    workers := workers
    jobCap := workers
    resultCap := workers * resultBufDepth
    write := env.write }

def snapParams (spt : Proof) (commD commK : Cid) : Go (Nat × Bytes) := do
  let ssize ← wrap "failed to get sector size" (ofCall (lib.sectorSize spt))
  let nodesCount := ssize / nodeSize
  let commDNew ← wrap "failed to convert commD to CID" (ofCall (lib.cidToDataCommitmentV1 commD))
  let commROld ← wrap "failed to convert commK to replica commitment"
    (ofCall (lib.cidToReplicaCommitmentV1 commK))
  let phiVal ← wrap "failed to calculate phi" (phi lib commDNew commROld)
  return (nodesCount, phiVal)

def encodeSnap (numCPU : Nat) (env : SnapEnv) (spt : Proof) (commD commK : Cid)
    (key data : Source) : Go (Pipeline Job UInt8 IoError) := do
  let (nodesCount, phiVal) ← snapParams lib spt commD commK
  let h := hDefault nodesCount
  let rhos ← wrap "failed to compute rhos" (new lib phiVal h nodesCount)
  return snapPipeline numCPU env (workerEnc env.outs rhos) key data

def decodeSnap (numCPU : Nat) (env : SnapEnv) (spt : Proof) (commD commK : Cid)
    (key replica : Source) : Go (Pipeline Job UInt8 IoError) := do
  let (nodesCount, phiVal) ← snapParams lib spt commD commK
  let h := hDefault nodesCount
  let rhoInvs ← wrap "failed to compute rho inverses" (newInv lib phiVal h nodesCount)
  return snapPipeline numCPU env (workerSnap env.outs rhoInvs) replica key

end Curio.CuNative
