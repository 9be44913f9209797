import Curio.Proof.MerkleBincode

/-! The WindowPoSt vanilla verifier: `lib/proof/post_vproof_types.go`,
`lib/proof/post_vproof_bin_decode.go` and `lib/proof/post_vproof_verify.go`. Poseidon, the CID
library and the table of registered proofs are parameters. -/

namespace Curio.Proof

open GoRuntime ByteCodec

structure SectorProof where
  inclusionProofs : Slice (MerkleProof PoseidonDomain)
  commC : PoseidonDomain
  commRLast : PoseidonDomain
  deriving DecidableEq

structure VanillaProof where
  sectors : Slice SectorProof
  deriving DecidableEq

structure FallbackPoStSectorProof where
  sectorId : UInt64
  commR : PoseidonDomain
  vanillaProof : VanillaProof
  deriving DecidableEq

def decodeSectorProof : Reader SectorProof := do
  let inclusionProofs ← readSlice "failed to read inclusion_proofs length"
    ((decodeMerkleProof PoseidonDomain).within "failed to decode MerkleProof")
  let commC ← (decodeHasherDomain PoseidonDomain).within "failed to decode comm_c"
  let commRLast ← (decodeHasherDomain PoseidonDomain).within "failed to decode comm_r_last"
  pure ⟨inclusionProofs, commC, commRLast⟩

def decodeVanillaProof : Reader VanillaProof := do
  let sectors ← readSlice "failed to read sectors length"
    (decodeSectorProof.within "failed to decode SectorProof")
  pure ⟨sectors⟩

/-- Nothing is asked of the bytes behind the proof. -/
def decodeFallbackPoStSectorProof : Reader FallbackPoStSectorProof := do
  let sectorId ← (readLE UInt64).within "failed to decode sector_id"
  let commR ← (decodeHasherDomain PoseidonDomain).within "failed to decode comm_r"
  let vanillaProof ← decodeVanillaProof.within "failed to decode vanilla_proof"
  pure ⟨sectorId, commR, vanillaProof⟩

inductive PoStType where
  | window
  | winning
  deriving DecidableEq

/-- `%d` -/
def PoStType.number : PoStType → Nat
  | .window => 0
  | .winning => 1

structure PoStConfig where
  postType : PoStType
  sectorSize : Nat
  sectorCount : Nat
  challengeCount : Nat
  priority : Bool
  deriving DecidableEq

/-- Zero for a size that is not in the table. -/
def windowPostSectorCount (sectorSize : Nat) : Nat :=
  if sectorSize = 32 <<< 30 then 2349
  else if sectorSize = 64 <<< 30 then 2300
  else if sectorSize ∈ [2 <<< 10, 4 <<< 10, 16 <<< 10, 32 <<< 10, 8 <<< 20, 16 <<< 20, 512 <<< 20,
    1 <<< 30] then 2
  else 0

def windowPostChallengeCount : Nat := 10

def getPoStConfig (sectorSize : Nat) : PoStConfig :=
  ⟨.window, sectorSize, windowPostSectorCount sectorSize, windowPostChallengeCount, true⟩

/-- What the verifier uses of `go-fil-commcid`, of the registered proof types and of Poseidon:
the hash for an arity, of that many values. -/
structure PoStExternals where
  Cid : Type
  cidToReplicaCommitmentV1 : Cid → Call Bytes
  RegisteredPoStProof : Type
  sectorSize : RegisteredPoStProof → Call Nat
  poseidon : Nat → List PoseidonDomain → Call PoseidonDomain

structure SectorInfo (ext : PoStExternals) where
  sectorNumber : UInt64
  sealedCid : ext.Cid

structure PoStProof (ext : PoStExternals) where
  postProof : ext.RegisteredPoStProof
  proofBytes : Bytes

structure WindowPoStVerifyInfo (ext : PoStExternals) where
  randomness : Bytes
  proofs : List (PoStProof ext)
  challengedSectors : List (SectorInfo ext)

variable (ext : PoStExternals)

def poseidonHashMulti (arity : Nat) (vals : List PoseidonDomain) : Go PoseidonDomain :=
  if vals.length ≠ arity then panics "poseidonhashMulti called with invalid amount of values"
  else match ext.poseidon arity vals with
    | .ok digest => .ok digest
    | .error message => panics s!"poseidonHashMulti error: {message}"

/-- The siblings of a path element with the current node among them, as the loop over the
positions places them: a hash is taken whenever the position is not the index. -/
def combine (cur : PoseidonDomain) (elem : PathElement PoseidonDomain) :
    Go (List PoseidonDomain) := do
  let idx := int64 elem.index.toNat
  let (combined, _) ← forRange (elem.hashes.items.length + 1)
    (fun (state : List PoseidonDomain × Nat) x =>
      if (x : Int) = idx then .ok (state.1 ++ [cur], state.2)
      else do
        let sibling ← readAt elem.hashes.items state.2
        .ok (state.1 ++ [sibling], state.2 + 1))
    ([], 0)
  .ok combined

def reconstructPath (leaf : PoseidonDomain) (path : InclusionPath PoseidonDomain) :
    Go PoseidonDomain :=
  path.path.items.foldlM (fun cur elem => combine cur elem >>= poseidonHashMulti ext 8) leaf

def doSingleProof (sp : SingleProof PoseidonDomain) : Go PoseidonDomain := do
  let final ← reconstructPath ext sp.leaf sp.path
  if final ≠ sp.root then fail "single proof mismatch root" else .ok final

def doSubProof (sp : SubProof PoseidonDomain) : Go PoseidonDomain := do
  let baseOut ← reconstructPath ext sp.leaf sp.baseProof
  let subOut ← reconstructPath ext baseOut sp.subProof
  if subOut ≠ sp.root then fail "sub proof mismatch root" else .ok subOut

def doTopProof (tp : TopProof PoseidonDomain) : Go PoseidonDomain := do
  let base ← reconstructPath ext tp.leaf tp.baseProof
  let sub ← reconstructPath ext base tp.subProof
  let top ← reconstructPath ext sub tp.topProof
  if top ≠ tp.root then fail "top proof mismatch root" else .ok top

def checkMerkleProof (mp : MerkleProof PoseidonDomain) : Go PoseidonDomain :=
  match mp.data.single, mp.data.sub, mp.data.top with
  | some single, _, _ => doSingleProof ext single
  | none, some sub, _ => doSubProof ext sub
  | none, none, some top => doTopProof ext top
  | none, none, none => fail "invalid merkle proof variant: no single/sub/top set"

def checkCommR (commC commRLast claimed : PoseidonDomain) : Go Bool := do
  let computed ← poseidonHashMulti ext 2 [commC, commRLast]
  .ok (computed == claimed)

def checkInclusion (sec : FallbackPoStSectorProof) (sp : SectorProof)
    (mp : MerkleProof PoseidonDomain) : Go Unit := do
  let root ← wrap s!"merkle proof error for sector {sec.sectorId}" (checkMerkleProof ext mp)
  if root ≠ sp.commRLast then
    fail s!"comm_r_last mismatch from merkle root in sector {sec.sectorId}"
  else .ok ()

def checkSectorProof (pIndex : Nat) (sec : FallbackPoStSectorProof) (sp : SectorProof) :
    Go Unit := do
  if !(← checkCommR ext sp.commC sp.commRLast sec.commR) then
    fail s!"comm_r invalid: sector {sec.sectorId}, partition {pIndex}"
  else forEach sp.inclusionProofs.items (checkInclusion ext sec sp)

def checkSector (replicas : UInt64 → Option PoseidonDomain) (pIndex : Nat)
    (sec : FallbackPoStSectorProof) : Go Unit :=
  match replicas sec.sectorId with
  | none => fail s!"missing PublicReplicaInfo for sector {sec.sectorId}"
  | some commR =>
    if commR ≠ sec.commR then
      fail s!"CommR mismatch for sector {sec.sectorId} in partition {pIndex}"
    else forEach sec.vanillaProof.sectors.items (checkSectorProof ext pIndex sec)

/-- One partition of one sector, so the group has one goroutine. -/
def verifyWindowPoStVanilla (cfg : PoStConfig) (replicas : UInt64 → Option PoseidonDomain)
    (sectorProofs : List FallbackPoStSectorProof) : Go Bool := do
  if cfg.postType ≠ .window then
    fail s!"expected Window PoSt, got type={cfg.postType.number}"
  else if sectorProofs.length ≠ 1 then
    fail s!"expected 1 proof, multi-sector support todo, got {sectorProofs.length}"
  else do
    forEach [sectorProofs].zipIdx
      (fun partition => forEach partition.1 (checkSector ext replicas partition.2))
    .ok true

def toDomain (commr : Bytes) : Go PoseidonDomain :=
  if commr.length < 32 then
    panics (s!"runtime error: cannot convert slice with length {commr.length} to array or " ++
      "pointer to array with length 32")
  else .ok (FixedSize.get (commr.take 32))

def replicaCommitment (info : SectorInfo ext) : Go PoseidonDomain := do
  let commr ← wrap "failed to get replica commitment"
    (ofCall (ext.cidToReplicaCommitmentV1 info.sealedCid))
  toDomain commr

/-- The map of replicas: a later sector with the same number replaces an earlier one. -/
def collectReplicas (challenged : List (SectorInfo ext)) :
    Go (UInt64 → Option PoseidonDomain) :=
  challenged.foldlM (fun replicas info => do
    let commR ← replicaCommitment ext info
    .ok (fun number => if number = info.sectorNumber then some commR else replicas number))
    (fun _ => none)

/-- The exported `VerifyWindowPoStVanilla`. -/
def WindowPoStVerifyInfo.verifyWindowPoStVanilla (pvi : WindowPoStVerifyInfo ext) : Go Bool := do
  if pvi.randomness.length < 32 then fail "randomness is not 32 bytes"
  else do
    let replicas ← collectReplicas ext pvi.challengedSectors
    match pvi.proofs with
    | [proof] => do
        let (vp, _) ← wrap "failed to decode fallback PoSt sector proof"
          (decodeFallbackPoStSectorProof.run proof.proofBytes)
        let ssize ← wrap "failed to get sector size" (ofCall (ext.sectorSize proof.postProof))
        Proof.verifyWindowPoStVanilla ext (getPoStConfig ssize) replicas [vp]
    | proofs => fail s!"expected 1 proof, got {proofs.length}"

end Curio.Proof
