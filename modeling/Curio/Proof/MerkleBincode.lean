import Curio.ByteCodec
import Curio.Proof.Verify

/-! Merkle proofs of the proofs library: the types of `lib/proof/merkle.go` and their bincode
form in `lib/proof/porep_vproof_bin_encode.go` and `lib/proof/porep_vproof_bin_decode.go`.

The text of an error names the step that met it; the format itself is the order of the reads
and writes. -/

namespace Curio.Proof

open GoRuntime ByteCodec

/-- Both domains are 32 raw bytes. -/
abbrev Sha256Domain := Node

abbrev PoseidonDomain := Node

structure PathElement (H : Type) where
  hashes : Slice H
  index : UInt64
  deriving DecidableEq

structure InclusionPath (H : Type) where
  path : Slice (PathElement H)
  deriving DecidableEq

structure SingleProof (H : Type) where
  root : H
  leaf : H
  path : InclusionPath H
  deriving DecidableEq

structure SubProof (H : Type) where
  baseProof : InclusionPath H
  subProof : InclusionPath H
  root : H
  leaf : H
  deriving DecidableEq

structure TopProof (H : Type) where
  baseProof : InclusionPath H
  subProof : InclusionPath H
  topProof : InclusionPath H
  root : H
  leaf : H
  deriving DecidableEq

/-- Three pointers, any of which may be set. -/
structure ProofData (H : Type) where
  single : Option (SingleProof H) := none
  sub : Option (SubProof H) := none
  top : Option (TopProof H) := none
  deriving DecidableEq

structure MerkleProof (H : Type) where
  data : ProofData H
  deriving DecidableEq

section Encode

variable {H : Type} [FixedSize H]

def encodeHasherDomain (h : H) : Writer Unit :=
  (writeLE h).within "failed to encode hasher domain"

def encodePathElement (pe : PathElement H) : Writer Unit := do
  writeSlice "writing number of path-element hashes"
    (fun h => (encodeHasherDomain h).within "encode path-element hash") pe.hashes
  (writeLE pe.index).within "writing path-element index"

def encodeInclusionPath (ip : InclusionPath H) : Writer Unit :=
  writeSlice "writing path length"
    (fun el => (encodePathElement el).within "encode path element") ip.path

def encodeSingleProof (sp : SingleProof H) : Writer Unit := do
  (encodeHasherDomain sp.root).within "encode SingleProof Root"
  (encodeHasherDomain sp.leaf).within "encode SingleProof Leaf"
  (encodeInclusionPath sp.path).within "encode SingleProof Path"

def encodeSubProof (sp : SubProof H) : Writer Unit := do
  (encodeInclusionPath sp.baseProof).within "encode SubProof BaseProof"
  (encodeInclusionPath sp.subProof).within "encode SubProof SubProof"
  (encodeHasherDomain sp.root).within "encode SubProof Root"
  (encodeHasherDomain sp.leaf).within "encode SubProof Leaf"

def encodeTopProof (tp : TopProof H) : Writer Unit := do
  (encodeInclusionPath tp.baseProof).within "encode TopProof BaseProof"
  (encodeInclusionPath tp.subProof).within "encode TopProof SubProof"
  (encodeInclusionPath tp.topProof).within "encode TopProof TopProof"
  (encodeHasherDomain tp.root).within "encode TopProof Root"
  (encodeHasherDomain tp.leaf).within "encode TopProof Leaf"

/-- The first pointer that is set decides. -/
def encodeProofData (pd : ProofData H) : Writer Unit :=
  match pd.single, pd.sub, pd.top with
  | some single, _, _ => do
      (writeLE (0 : UInt32)).within "write Single tag"
      (encodeSingleProof single).within "encode single proof"
  | none, some sub, _ => do
      (writeLE (1 : UInt32)).within "write Sub tag"
      (encodeSubProof sub).within "encode sub proof"
  | none, none, some top => do
      (writeLE (2 : UInt32)).within "write Top tag"
      (encodeTopProof top).within "encode top proof"
  | none, none, none => fun _ => fail "proof data is nil for Single, Sub, and Top"

def encodeMerkleProof (m : MerkleProof H) : Writer Unit := encodeProofData m.data

end Encode

section Decode

variable (H : Type) [FixedSize H]

def decodeHasherDomain : Reader H := (readLE H).within "failed to decode HasherDomain"

def decodePathElement : Reader (PathElement H) := do
  let hashes ← readSlice "failed to read number of hashes"
    ((decodeHasherDomain H).within "failed to decode HasherDomain")
  let index ← (readLE UInt64).within "failed to read index"
  pure ⟨hashes, index⟩

def decodeInclusionPath : Reader (InclusionPath H) := do
  let path ← readSlice "failed to read number of elements"
    ((decodePathElement H).within "failed to decode PathElement")
  pure ⟨path⟩

def decodeSingleProof : Reader (SingleProof H) := do
  let root ← (decodeHasherDomain H).within "failed to decode Root"
  let leaf ← (decodeHasherDomain H).within "failed to decode Leaf"
  let path ← (decodeInclusionPath H).within "failed to decode Path"
  pure ⟨root, leaf, path⟩

def decodeSubProof : Reader (SubProof H) := do
  let baseProof ← (decodeInclusionPath H).within "failed to decode BaseProof"
  let subProof ← (decodeInclusionPath H).within "failed to decode SubProof"
  let root ← (decodeHasherDomain H).within "failed to decode Root"
  let leaf ← (decodeHasherDomain H).within "failed to decode Leaf"
  pure ⟨baseProof, subProof, root, leaf⟩

def decodeTopProof : Reader (TopProof H) := do
  let baseProof ← (decodeInclusionPath H).within "failed to decode BaseProof"
  let subProof ← (decodeInclusionPath H).within "failed to decode SubProof"
  let topProof ← (decodeInclusionPath H).within "failed to decode TopProof"
  let root ← (decodeHasherDomain H).within "failed to decode Root"
  let leaf ← (decodeHasherDomain H).within "failed to decode Leaf"
  pure ⟨baseProof, subProof, topProof, root, leaf⟩

def decodeTagged (proofType : UInt32) : Reader (ProofData H) :=
  if proofType = 0 then do
    let single ← (decodeSingleProof H).within "failed to decode proof"
    pure ⟨some single, none, none⟩
  else if proofType = 1 then do
    let sub ← (decodeSubProof H).within "failed to decode proof"
    pure ⟨none, some sub, none⟩
  else if proofType = 2 then do
    let top ← (decodeTopProof H).within "failed to decode proof"
    pure ⟨none, none, some top⟩
  else .lift (fail s!"unknown proof type: {proofType}")

def decodeProofData : Reader (ProofData H) := do
  let proofType ← (readLE UInt32).within "failed to read proof type"
  decodeTagged H proofType

def decodeMerkleProof : Reader (MerkleProof H) := do
  let data ← (decodeProofData H).within "failed to decode ProofData"
  pure ⟨data⟩

end Decode

section Filled

variable {H : Type}

def PathElement.filled (pe : PathElement H) : PathElement H :=
  { pe with hashes := pe.hashes.filled id }

def InclusionPath.filled (ip : InclusionPath H) : InclusionPath H :=
  ⟨ip.path.filled PathElement.filled⟩

def SingleProof.filled (sp : SingleProof H) : SingleProof H := { sp with path := sp.path.filled }

def SubProof.filled (sp : SubProof H) : SubProof H :=
  { sp with baseProof := sp.baseProof.filled, subProof := sp.subProof.filled }

def TopProof.filled (tp : TopProof H) : TopProof H :=
  { tp with
    baseProof := tp.baseProof.filled
    subProof := tp.subProof.filled
    topProof := tp.topProof.filled }

def ProofData.filled (pd : ProofData H) : ProofData H :=
  ⟨pd.single.map SingleProof.filled, pd.sub.map SubProof.filled, pd.top.map TopProof.filled⟩

def MerkleProof.filled (m : MerkleProof H) : MerkleProof H := ⟨m.data.filled⟩

def ProofData.OneSet (pd : ProofData H) : Prop :=
  [pd.single.isSome, pd.sub.isSome, pd.top.isSome].count true = 1

theorem ProofData.OneSet.cases {pd : ProofData H} (one : pd.OneSet) :
    (∃ single, pd = ⟨some single, none, none⟩) ∨ (∃ sub, pd = ⟨none, some sub, none⟩) ∨
      ∃ top, pd = ⟨none, none, some top⟩ := by
  obtain ⟨single, sub, top⟩ := pd
  cases single <;> cases sub <;> cases top <;> simp [ProofData.OneSet] at one ⊢

end Filled

variable {H : Type} [FixedSize H]

theorem hasherDomain_roundTrip :
    RoundTrip encodeHasherDomain (decodeHasherDomain H) (fun _ => True) id :=
  RoundTrip.word.within

theorem pathElement_roundTrip :
    RoundTrip encodePathElement (decodePathElement H) (fun _ => True) PathElement.filled :=
  .ofFields <| .field hasherDomain_roundTrip.within.slice (fun _ _ _ _ => trivial) fun _ =>
    .last RoundTrip.word.within (fun _ _ => trivial)

theorem inclusionPath_roundTrip :
    RoundTrip encodeInclusionPath (decodeInclusionPath H) (fun _ => True) InclusionPath.filled :=
  .ofFields <| .last pathElement_roundTrip.within.slice (fun _ _ _ _ => trivial)

theorem singleProof_roundTrip :
    RoundTrip encodeSingleProof (decodeSingleProof H) (fun _ => True) SingleProof.filled :=
  .ofFields <| .field hasherDomain_roundTrip.within (fun _ _ => trivial) fun _ =>
    .field hasherDomain_roundTrip.within (fun _ _ => trivial) fun _ =>
    .last inclusionPath_roundTrip.within (fun _ _ => trivial)

theorem subProof_roundTrip :
    RoundTrip encodeSubProof (decodeSubProof H) (fun _ => True) SubProof.filled :=
  .ofFields <| .field inclusionPath_roundTrip.within (fun _ _ => trivial) fun _ =>
    .field inclusionPath_roundTrip.within (fun _ _ => trivial) fun _ =>
    .field hasherDomain_roundTrip.within (fun _ _ => trivial) fun _ =>
    .last hasherDomain_roundTrip.within (fun _ _ => trivial)

theorem topProof_roundTrip :
    RoundTrip encodeTopProof (decodeTopProof H) (fun _ => True) TopProof.filled :=
  .ofFields <| .field inclusionPath_roundTrip.within (fun _ _ => trivial) fun _ =>
    .field inclusionPath_roundTrip.within (fun _ _ => trivial) fun _ =>
    .field inclusionPath_roundTrip.within (fun _ _ => trivial) fun _ =>
    .field hasherDomain_roundTrip.within (fun _ _ => trivial) fun _ =>
    .last hasherDomain_roundTrip.within (fun _ _ => trivial)

theorem proofData_roundTrip :
    RoundTrip encodeProofData (decodeProofData H) ProofData.OneSet ProofData.filled where
  carries pd one := by
    obtain ⟨single, rfl⟩ | ⟨sub, rfl⟩ | ⟨top, rfl⟩ := one.cases
    · exact (Carries.word _).within.bind (singleProof_roundTrip.carries single trivial).within.last
    · exact (Carries.word _).within.bind (subProof_roundTrip.carries sub trivial).within.last
    · exact (Carries.word _).within.bind (topProof_roundTrip.carries top trivial).within.last
  rewrites bytes pd reads := by
    obtain ⟨proofType, _, _, rfl, tookTag, reads⟩ := reads_bind.mp reads
    unfold decodeTagged at reads
    split_ifs at reads with isSingle isSub isTop
    · obtain ⟨single, tookSingle, rfl⟩ := reads_bind_pure.mp reads
      rw [isSingle] at tookTag
      exact (RoundTrip.word.within.rewrites _ _ tookTag).bind
        (singleProof_roundTrip.within.rewrites _ _ tookSingle)
    · obtain ⟨sub, tookSub, rfl⟩ := reads_bind_pure.mp reads
      rw [isSub] at tookTag
      exact (RoundTrip.word.within.rewrites _ _ tookTag).bind
        (subProof_roundTrip.within.rewrites _ _ tookSub)
    · obtain ⟨top, tookTop, rfl⟩ := reads_bind_pure.mp reads
      rw [isTop] at tookTag
      exact (RoundTrip.word.within.rewrites _ _ tookTag).bind
        (topProof_roundTrip.within.rewrites _ _ tookTop)
    · obtain ⟨_, impossible⟩ := reads_lift.mp reads
      cases impossible

theorem merkleProof_roundTrip :
    RoundTrip encodeMerkleProof (decodeMerkleProof H) (fun m => m.data.OneSet)
      MerkleProof.filled where
  carries m one := by
    obtain ⟨bytes, wrote, took⟩ := proofData_roundTrip.carries m.data one
    exact ⟨bytes, wrote, reads_bind_pure.mpr ⟨_, reads_within.mpr took, rfl⟩⟩
  rewrites bytes m reads := by
    obtain ⟨data, tookData, rfl⟩ := reads_bind_pure.mp reads
    exact proofData_roundTrip.rewrites _ _ (reads_within.mp tookData)

end Curio.Proof
