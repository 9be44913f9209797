import Curio.Pce.RecordingCS

/-! The evaluation of a pre-compiled circuit: `cuzk-pce/src/eval.rs`. -/

namespace Curio.Pce

open GoRuntime

variable {F : Type} [Field F]

def sliceBetween {α : Type} (slice : List α) (start stop : Nat) : Go (List α) :=
  if start ≤ stop ∧ stop ≤ slice.length then .ok ((slice.take stop).drop start)
  else panics "range out of bounds"

def accumulate (witness : List F) : List UInt32 → List F → F → Go F
  | col :: cols, val :: vals, acc => do
      let w ← readAt witness col.toNat
      accumulate witness cols vals (acc + val * w)
  | _, _, acc => .ok acc

def rowProduct (matrix : CsrMatrix F) (witness : List F) (row : Nat) : Go F := do
  let start ← readAt matrix.rowPtrs row
  let stop ← readAt matrix.rowPtrs (row + 1)
  let cols ← sliceBetween matrix.cols start.toNat stop.toNat
  let vals ← sliceBetween matrix.vals start.toNat stop.toNat
  accumulate witness cols vals 0

def chunkSize : Nat := 8192

def chunkRows (numRows chunk : Nat) : List Nat :=
  (List.range (min chunkSize (numRows - chunk * chunkSize))).map (chunk * chunkSize + ·)

/-- The chunks write to parts of the result that do not overlap. -/
def spmvParallel (matrix : CsrMatrix F) (witness : List F) : Go (List F) :=
  let numRows := matrix.numRows
  let chunks := (List.range ((numRows + (chunkSize - 1)) / chunkSize)).map (chunkRows numRows)
  chunks.flatten.mapM (rowProduct matrix witness)

structure PceEvalResult (F : Type) where
  a : List F
  b : List F
  c : List F
  inputAssignment : List F
  auxAssignment : List F

def evaluatePce (pce : PreCompiledCircuit F) (inputAssignment auxAssignment : List F) :
    Go (PceEvalResult F) :=
  if inputAssignment.length ≠ pce.numInputs.toNat then
    panics (s!"input_assignment length mismatch: got {inputAssignment.length}, " ++
      s!"expected {pce.numInputs}")
  else if auxAssignment.length ≠ pce.numAux.toNat then
    panics (s!"aux_assignment length mismatch: got {auxAssignment.length}, " ++
      s!"expected {pce.numAux}")
  else do
    let witness := inputAssignment ++ auxAssignment
    let a ← spmvParallel pce.a witness
    let b ← spmvParallel pce.b witness
    let c ← spmvParallel pce.c witness
    .ok ⟨a, b, c, inputAssignment, auxAssignment⟩

end Curio.Pce
