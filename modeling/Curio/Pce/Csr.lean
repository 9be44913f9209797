import Curio.GoRuntime

/-! The pre-compiled circuit of `cuzk-pce/src/csr.rs` and `cuzk-pce/src/density.rs`.

A call of Rust returns a value, returns an `Err` or panics; its outcomes are those of a Go call. -/

namespace Curio.Pce

/-- The entries of row `i` are at the positions from `rowPtrs[i]` up to `rowPtrs[i + 1]`. -/
structure CsrMatrix (Scalar : Type) where
  rowPtrs : List UInt32
  cols : List UInt32
  vals : List Scalar
  deriving DecidableEq

namespace CsrMatrix

variable {Scalar : Type} (matrix : CsrMatrix Scalar)

def numRows : Nat := matrix.rowPtrs.length - 1

def nnz : Nat := matrix.cols.length

end CsrMatrix

structure PreComputedDensity where
  aAuxDensityWords : List UInt64
  aAuxBitLen : UInt64
  aAuxPopcount : UInt64
  bInputDensityWords : List UInt64
  bInputBitLen : UInt64
  bInputPopcount : UInt64
  bAuxDensityWords : List UInt64
  bAuxBitLen : UInt64
  bAuxPopcount : UInt64
  deriving DecidableEq

structure PreCompiledCircuit (Scalar : Type) where
  numInputs : UInt32
  numAux : UInt32
  numConstraints : UInt32
  a : CsrMatrix Scalar
  b : CsrMatrix Scalar
  c : CsrMatrix Scalar
  density : PreComputedDensity
  deriving DecidableEq

def PreCompiledCircuit.totalNnz {Scalar : Type} (pce : PreCompiledCircuit Scalar) : Nat :=
  pce.a.nnz + pce.b.nnz + pce.c.nnz

end Curio.Pce
