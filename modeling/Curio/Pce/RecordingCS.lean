import Curio.Pce.Csr

/-! The extraction of a pre-compiled circuit: `cuzk-pce/src/recording_cs.rs` and
`PreComputedDensity::from_csr` of `cuzk-pce/src/density.rs`.

A circuit is the sequence of its calls on a constraint system; the closures of its allocations
succeed. Words wrap as in a release build, counts are `usize`. -/

namespace Curio.Pce

open GoRuntime

inductive Index where
  | input (i : Nat)
  | aux (i : Nat)
  deriving DecidableEq

/-- The terms of the inputs and those of the auxiliary variables. -/
structure LinearCombination (F : Type) where
  inputTerms : List (Nat × F)
  auxTerms : List (Nat × F)

def LinearCombination.zero {F : Type} : LinearCombination F := ⟨[], []⟩

/-- The calls of a circuit. A child is synthesized in a system of its own, which has its temporary
ONE already, and then merged. -/
inductive Synthesis (F : Type) where
  | done
  | alloc (rest : Synthesis F)
  | allocInput (rest : Synthesis F)
  | enforce (a b c : LinearCombination F) (rest : Synthesis F)
  | extend (child rest : Synthesis F)

section Recording

variable {F : Type} [Field F] [DecidableEq F]

def auxFlag : UInt32 := 0x80000000

/-- The column of a variable while the number of inputs is not final. -/
def tagged : Index → UInt32
  | .input i => UInt32.ofNat i
  | .aux i => UInt32.ofNat i ||| auxFlag

def pushTerms (index : Nat → Index) : List (Nat × F) → CsrMatrix F → CsrMatrix F
  | [], matrix => matrix
  | (i, coeff) :: rest, matrix =>
    if coeff = 0 then pushTerms index rest matrix
    else
      pushTerms index rest
        { matrix with
          cols := matrix.cols ++ [tagged (index i)]
          vals := matrix.vals ++ [coeff] }

def recordRow (lc : LinearCombination F) (matrix : CsrMatrix F) : CsrMatrix F :=
  let recorded := pushTerms .aux lc.auxTerms (pushTerms .input lc.inputTerms matrix)
  { recorded with rowPtrs := recorded.rowPtrs ++ [UInt32.ofNat recorded.cols.length] }

structure RecordingCS (F : Type) where
  numInputs : Nat
  numAux : Nat
  numConstraints : Nat
  a : CsrMatrix F
  b : CsrMatrix F
  c : CsrMatrix F

namespace RecordingCS

def new : RecordingCS F := ⟨0, 0, 0, ⟨[0], [], []⟩, ⟨[0], [], []⟩, ⟨[0], [], []⟩⟩

def alloc (cs : RecordingCS F) : RecordingCS F := { cs with numAux := cs.numAux + 1 }

def allocInput (cs : RecordingCS F) : RecordingCS F := { cs with numInputs := cs.numInputs + 1 }

def enforce (a b c : LinearCombination F) (cs : RecordingCS F) : RecordingCS F :=
  { cs with
    a := recordRow a cs.a
    b := recordRow b cs.b
    c := recordRow c cs.c
    numConstraints := cs.numConstraints + 1 }

def remapCol (inputOffset auxOffset : Nat) (col : UInt32) : UInt32 :=
  if col &&& auxFlag ≠ 0 then
    ((col &&& ~~~auxFlag) + UInt32.ofNat auxOffset) ||| auxFlag
  else if col = 0 then 0
  else col - 1 + UInt32.ofNat inputOffset

def extendMatrix (remap : UInt32 → UInt32) (matrix other : CsrMatrix F) : CsrMatrix F :=
  let colBase := UInt32.ofNat matrix.cols.length
  { cols := matrix.cols ++ other.cols.map remap
    vals := matrix.vals ++ other.vals
    rowPtrs := matrix.rowPtrs ++ (other.rowPtrs.drop 1).map (· + colBase) }

/-- The first input of the child is left out: it is the ONE of the parent. -/
def extend (cs other : RecordingCS F) : RecordingCS F :=
  let remap := remapCol cs.numInputs cs.numAux
  { a := extendMatrix remap cs.a other.a
    b := extendMatrix remap cs.b other.b
    c := extendMatrix remap cs.c other.c
    numInputs := cs.numInputs + (other.numInputs - 1)
    numAux := cs.numAux + other.numAux
    numConstraints := cs.numConstraints + other.numConstraints }

def synthesize : Synthesis F → RecordingCS F → RecordingCS F
  | .done, cs => cs
  | .alloc rest, cs => synthesize rest cs.alloc
  | .allocInput rest, cs => synthesize rest cs.allocInput
  | .enforce a b c rest, cs => synthesize rest (cs.enforce a b c)
  | .extend child rest, cs => synthesize rest (cs.extend (synthesize child new.allocInput))

end RecordingCS

end Recording

def rawWords : Nat → List Bool → List UInt64
  | 0, _ => []
  | count + 1, bits =>
    UInt64.ofNat ((bits.take 64).foldr (fun bit high => bit.toNat + 2 * high) 0) ::
      rawWords count (bits.drop 64)

def asRawSlice (bits : List Bool) : List UInt64 := rawWords ((bits.length + 63) / 64) bits

def countOnes (bits : List Bool) : UInt64 := UInt64.ofNat (bits.count true)

def setAll (index : Nat → Option Nat) : List UInt32 → List Bool → Go (List Bool)
  | [], bits => .ok bits
  | col :: rest, bits =>
    match index col.toNat with
    | none => setAll index rest bits
    | some i => do
        let marked ← writeAt bits i true
        setAll index rest marked

def auxIndex (numInputs col : Nat) : Option Nat :=
  if numInputs ≤ col then some (col - numInputs) else none

def inputIndex (numInputs col : Nat) : Option Nat :=
  if col < numInputs then some col else none

/-- The two bit vectors of B are set in one pass; neither pass looks at what the other sets. -/
def fromCsr {F : Type} (a b : CsrMatrix F) (numInputs numAux : Nat) : Go PreComputedDensity := do
  let aAux ← setAll (auxIndex numInputs) a.cols (List.replicate numAux false)
  let bInput ← setAll (inputIndex numInputs) b.cols (List.replicate numInputs false)
  let bAux ← setAll (auxIndex numInputs) b.cols (List.replicate numAux false)
  .ok
    { aAuxDensityWords := asRawSlice aAux
      aAuxBitLen := UInt64.ofNat numAux
      aAuxPopcount := countOnes aAux
      bInputDensityWords := asRawSlice bInput
      bInputBitLen := UInt64.ofNat numInputs
      bInputPopcount := countOnes bInput
      bAuxDensityWords := asRawSlice bAux
      bAuxBitLen := UInt64.ofNat numAux
      bAuxPopcount := countOnes bAux }

variable {F : Type} [Field F] [DecidableEq F]

def unifyCol (finalNumInputs col : UInt32) : UInt32 :=
  if col &&& auxFlag ≠ 0 then finalNumInputs + (col &&& ~~~auxFlag) else col

def remapCols (finalNumInputs : UInt32) (matrix : CsrMatrix F) : CsrMatrix F :=
  { matrix with cols := matrix.cols.map (unifyCol finalNumInputs) }

def RecordingCS.intoPrecompiled (cs : RecordingCS F) : Go (PreCompiledCircuit F) := do
  let numInputs := UInt32.ofNat cs.numInputs
  let a := remapCols numInputs cs.a
  let b := remapCols numInputs cs.b
  let c := remapCols numInputs cs.c
  let density ← fromCsr a b cs.numInputs cs.numAux
  .ok ⟨numInputs, UInt32.ofNat cs.numAux, UInt32.ofNat cs.numConstraints, a, b, c, density⟩

/-- `lc + Variable(Index::Input(i))` -/
def inputCombination (i : Nat) : LinearCombination F := ⟨[(i, 1)], []⟩

def addInputConstraints (cs : RecordingCS F) : RecordingCS F :=
  (List.range cs.numInputs).foldl (fun cs i => cs.enforce (inputCombination i) .zero .zero) cs

def extractPrecompiledCircuit (circuit : Synthesis F) : Go (PreCompiledCircuit F) :=
  (addInputConstraints (RecordingCS.synthesize circuit RecordingCS.new.allocInput)).intoPrecompiled

end Curio.Pce
