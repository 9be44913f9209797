import Curio.Proof.MerkleBincode

/-! `Commit1OutRaw` of `lib/proof/porep_vproof_types.go` and its bincode form:
`lib/proof/porep_vproof_bin_encode.go` and `lib/proof/porep_vproof_bin_decode.go`. -/

namespace Curio.Proof

open GoRuntime ByteCodec

abbrev Commitment := Node

abbrev Ticket := Node

abbrev StringRegisteredProofType := String

structure Column (H : Type) where
  index : UInt32
  rows : Slice H
  /-- `H any`: nothing reads or writes it. -/
  h : Option String := none
  deriving DecidableEq

structure ColumnProof (H : Type) where
  column : Column H
  inclusionProof : MerkleProof H
  deriving DecidableEq

structure ReplicaColumnProof (H : Type) where
  cX : ColumnProof H
  drgParents : Slice (ColumnProof H)
  expParents : Slice (ColumnProof H)
  deriving DecidableEq

structure LabelingProof (H : Type) where
  parents : Slice H
  layerIndex : UInt32
  node : UInt64
  deriving DecidableEq

/-- The same fields as a labeling proof. -/
abbrev EncodingProof := LabelingProof

structure VanillaStackedProof where
  commDProofs : MerkleProof Sha256Domain
  commRLastProof : MerkleProof PoseidonDomain
  replicaColumnProofs : ReplicaColumnProof PoseidonDomain
  labelingProofs : Slice (LabelingProof PoseidonDomain)
  encodingProof : EncodingProof PoseidonDomain
  deriving DecidableEq

abbrev VanillaProofs := StringRegisteredProofType → Option (Slice (Slice VanillaStackedProof))

structure Commit1OutRaw where
  commD : Commitment
  commR : Commitment
  registeredProof : StringRegisteredProofType
  replicaId : Commitment
  seed : Ticket
  ticket : Ticket
  vanillaProofs : VanillaProofs

def VanillaProofs.empty : VanillaProofs := fun _ => none

def VanillaProofs.set (proofs : VanillaProofs) (key : StringRegisteredProofType)
    (partitions : Slice (Slice VanillaStackedProof)) : VanillaProofs :=
  fun other => if other = key then some partitions else proofs other

def vanillaKey : StringRegisteredProofType := "StackedDrg32GiBV1"

section Encode

variable {H : Type} [FixedSize H]

def encodeColumn (c : Column H) : Writer Unit := do
  (writeLE c.index).within "writing column index"
  writeSlice "writing column rows length"
    (fun row => (encodeHasherDomain row).within "encode column row") c.rows

def encodeColumnProof (cp : ColumnProof H) : Writer Unit := do
  (encodeColumn cp.column).within "encode column"
  (encodeMerkleProof cp.inclusionProof).within "encode inclusion proof"

def encodeReplicaColumnProof (rcp : ReplicaColumnProof H) : Writer Unit := do
  (encodeColumnProof rcp.cX).within "encode c_x"
  writeSlice "writing drg_parents length"
    (fun cp => (encodeColumnProof cp).within "encode drg parent") rcp.drgParents
  writeSlice "writing exp_parents length"
    (fun cp => (encodeColumnProof cp).within "encode exp parent") rcp.expParents

/-- Labeling and encoding proofs differ in the name that errors give them. -/
def encodeNodeProof (name : String) (lp : LabelingProof H) : Writer Unit := do
  writeSlice s!"writing {name} proof parents length"
    (fun p => (encodeHasherDomain p).within s!"encode {name} proof parent") lp.parents
  (writeLE lp.layerIndex).within s!"writing {name} proof layer_index"
  (writeLE lp.node).within s!"writing {name} proof node"

def encodeLabelingProof : LabelingProof H → Writer Unit := encodeNodeProof "labeling"

def encodeEncodingProof : EncodingProof H → Writer Unit := encodeNodeProof "encoding"

def encodeVanillaStackedProof (v : VanillaStackedProof) : Writer Unit := do
  (encodeMerkleProof v.commDProofs).within "encode CommDProofs"
  (encodeMerkleProof v.commRLastProof).within "encode CommRLastProof"
  (encodeReplicaColumnProof v.replicaColumnProofs).within "encode ReplicaColumnProofs"
  writeSlice "writing labelingProofs length"
    (fun lp => (encodeLabelingProof lp).within "encode labeling proof") v.labelingProofs
  (encodeEncodingProof v.encodingProof).within "encode encoding proof"

def encodeTicket (t : Ticket) : Writer Unit := (writeLE t).within "writing ticket"

def encodeCommitment (c : Commitment) : Writer Unit := (writeLE c).within "writing commitment"

def encodePartition : Slice VanillaStackedProof → Writer Unit :=
  writeSlice "writing proofs inner length"
    (fun p => (encodeVanillaStackedProof p).within "encode vanilla stacked proof")

/-- A missing key is written as the constant `0`, which is an `int`. -/
def encodeVanillaProofs : Option (Slice (Slice VanillaStackedProof)) → Writer Unit
  | none => (writeUnsized "int").within "writing 0 for proofs outer length"
  | some proofs => writeSlice "writing proofs outer length" encodePartition proofs

def encodeCommit1OutRaw (c : Commit1OutRaw) : Writer Unit := do
  encodeVanillaProofs (c.vanillaProofs vanillaKey)
  (encodeCommitment c.commR).within "encode CommR"
  (encodeCommitment c.commD).within "encode CommD"
  (encodeCommitment c.replicaId).within "encode ReplicaID"
  (encodeTicket c.seed).within "encode Seed"
  (encodeTicket c.ticket).within "encode Ticket"

end Encode

variable (H : Type) [FixedSize H]

def decodeColumn : Reader (Column H) := do
  let index ← (readLE UInt32).within "failed to decode Index"
  let rows ← readSlice "failed to read Rows length"
    ((decodeHasherDomain H).within "failed to decode Row")
  pure ⟨index, rows, none⟩

def decodeColumnProof : Reader (ColumnProof H) := do
  let column ← (decodeColumn H).within "failed to decode Column"
  let inclusionProof ← (decodeMerkleProof H).within "failed to decode InclusionProof"
  pure ⟨column, inclusionProof⟩

def decodeReplicaColumnProof : Reader (ReplicaColumnProof H) := do
  let cX ← (decodeColumnProof H).within "failed to decode C_X"
  let drgParents ← readSlice "failed to read number of DRG parents"
    ((decodeColumnProof H).within "failed to decode DRG parent")
  let expParents ← readSlice "failed to read number of EXP parents"
    ((decodeColumnProof H).within "failed to decode EXP parent")
  pure ⟨cX, drgParents, expParents⟩

def decodeLabelingProof : Reader (LabelingProof H) := do
  let parents ← readSlice "failed to read Parents length"
    ((decodeHasherDomain H).within "failed to decode Parent")
  let layerIndex ← (readLE UInt32).within "failed to decode LayerIndex"
  let node ← (readLE UInt64).within "failed to decode Node"
  pure ⟨parents, layerIndex, node⟩

def decodeEncodingProof : Reader (EncodingProof H) := decodeLabelingProof H

def decodeVanillaStackedProof : Reader VanillaStackedProof := do
  let commDProofs ← (decodeMerkleProof Sha256Domain).within "failed to decode CommDProofs"
  let commRLastProof ← (decodeMerkleProof PoseidonDomain).within "failed to decode CommRLastProof"
  let replicaColumnProofs ← (decodeReplicaColumnProof PoseidonDomain).within
    "failed to decode ReplicaColumnProofs"
  let labelingProofs ← readSlice "failed to read number of LabelingProofs"
    ((decodeLabelingProof PoseidonDomain).within "failed to decode LabelingProof")
  let encodingProof ← (decodeEncodingProof PoseidonDomain).within "failed to decode EncodingProof"
  pure ⟨commDProofs, commRLastProof, replicaColumnProofs, labelingProofs, encodingProof⟩

def decodeTicket : Reader Ticket := (readLE Ticket).within "failed to decode Ticket"

def decodeCommitment : Reader Commitment :=
  (readLE Commitment).within "failed to decode Commitment"

def decodePartition : Reader (Slice VanillaStackedProof) :=
  readSlice "failed to read VanillaProofs inner length"
    (decodeVanillaStackedProof.within "failed to decode VanillaStackedProof")

def appendPartition (proofs : VanillaProofs) (inner : Slice VanillaStackedProof) :
    Go VanillaProofs := do
  let grown ← ((proofs vanillaKey).getD .nil).append inner
  .ok (proofs.set vanillaKey grown)

/-- The loop over the outer length: nothing is made before it. -/
def decodePartitions : Nat → VanillaProofs → Reader VanillaProofs
  | 0, proofs => pure proofs
  | count + 1, proofs => do
      let inner ← decodePartition
      let grown ← .lift (appendPartition proofs inner)
      decodePartitions count grown

def decodeCommit1Fields : Reader Commit1OutRaw := do
  let vpOuterLength ← (readLE UInt64).within "failed to read VanillaProofs outer length"
  let vanillaProofs ← decodePartitions vpOuterLength.toNat .empty
  let commR ← decodeCommitment.within "failed to decode CommR"
  let commD ← decodeCommitment.within "failed to decode CommD"
  let replicaId ← decodeCommitment.within "failed to decode ReplicaID"
  let seed ← decodeTicket.within "failed to decode Seed"
  let ticket ← decodeTicket.within "failed to decode Ticket"
  pure ⟨commD, commR, "StackedDrg32GiBV1_1", replicaId, seed, ticket, vanillaProofs⟩

/-- The last read has to find the end of the input. -/
def decodeCommit1OutRaw (input : Bytes) : Go Commit1OutRaw := do
  let (out, rest) ← decodeCommit1Fields.run input
  match rest with
  | [] => .ok out
  | byte :: _ =>
    fail s!"expected EOF (ndc:{rest.length}, b:{hexBytes [byte]}, derr:%!x(<nil>))"

end Curio.Proof
