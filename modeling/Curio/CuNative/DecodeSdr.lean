import Curio.CuNative.ChunkReader
import Curio.PipelineRuns

/-! `decode_sdr.go`: the parallel decoder, and the sequential one that its comment quotes. -/

namespace Curio.CuNative

open ByteCodec OrderedPipeline
open GoRuntime (Bytes)
open Curio.Proof (nodeSize)

/-- `curio_blst_decode`: the last node may reach behind `len` bytes of the buffers. -/
def curioBlstDecode (replica key : Bytes) (len : Nat) : Bytes :=
  (nodeLoop (fun _ value k => blstFrFromUint64 value - blstFrFromUint64 k)
    ((len + (nodeSize - 1)) / nodeSize) replica key).take len

/-- A buffer after something was read into it: the old bytes stay behind. -/
def overlay (read buffer : Bytes) : Bytes := read ++ buffer.drop read.length

def bufSz : Nat := 4 <<< 20

instance : NeZero bufSz := ⟨by decide⟩

theorem even_bufSz : nodeSize ∣ bufSz := by decide

/-- `runtime.NumCPU() / 2` -/
def nWorkers (numCPU : Nat) : Nat := numCPU / 2

/-- What the buffers hold that `pool.Get(bufSz)` hands out, one after the other. -/
structure Pool where
  get : Nat → Bytes
  length_get : ∀ count, (get count).length = bufSz

structure Job where
  rbuf : Bytes
  kbuf : Bytes
  size : Nat

def jobsOf (pool : Pool) (pairs : List (Bytes × Bytes)) : List Job :=
  pairs.mapIdx fun chunkID pair =>
    { rbuf := overlay pair.1 (pool.get (2 * chunkID))
      kbuf := overlay pair.2 (pool.get (2 * chunkID + 1))
      size := pair.1.length }

/-- `&j.rbuf[0]` panics for an empty chunk. -/
def worker (_chunkID : Nat) (j : Job) : Option Bytes :=
  if j.size = 0 then none else some (curioBlstDecode j.rbuf j.kbuf j.size)

/-- `Decode`, up to the order in which its goroutines take their steps. -/
def decode (numCPU : Nat) (pool : Pool) (write : Nat → Option (Nat × IoError))
    (replica key : Source) : Pipeline Job UInt8 IoError :=
  { jobs := jobsOf pool (readPairs bufSz replica key).1
    ending := (readPairs bufSz replica key).2
    work := worker
    workers := nWorkers numCPU
    jobCap := nWorkers numCPU
    resultCap := nWorkers numCPU
    write := write }

namespace Sequential

def bufSz : Nat := 1 <<< 20

instance : NeZero bufSz := ⟨by decide⟩

/-- The loop of the reference over the chunks that its reads give: what it writes and the error
that it returns. The reads are those of the parallel decoder, with smaller buffers. -/
def loop (write : Nat → Option (Nat × IoError)) (readErr : Option IoError) :
    Nat → Bytes → Bytes → List (Bytes × Bytes) → Bytes × Option IoError
  | _, _, _, [] => ([], readErr)
  | chunkID, rbuf, kbuf, (chunk, other) :: rest =>
    let rbuf := overlay chunk rbuf
    let kbuf := overlay other kbuf
    let obuf := curioBlstDecode rbuf kbuf chunk.length
    match write chunkID with
    | some (count, error) => (obuf.take count, some error)
    | none =>
      let later := loop write readErr (chunkID + 1) rbuf kbuf rest
      (obuf ++ later.1, later.2)

/-- The reference, with its buffers on the stack. -/
def decode (write : Nat → Option (Nat × IoError)) (replica key : Source) :
    Bytes × Option IoError :=
  loop write (readPairs bufSz replica key).2 0 (List.replicate bufSz 0) (List.replicate bufSz 0)
    (readPairs bufSz replica key).1

def written (replica key : Source) : Bytes := (decode (fun _ => none) replica key).1

end Sequential

end Curio.CuNative
