import Mathlib
import Curio.Proof.PoStVanilla

/-! What acceptance by the WindowPoSt vanilla verifier means. Every check it makes is sound; a
proof without inclusion paths passes all of them. -/

namespace Curio.Proof

open GoRuntime ByteCodec List
open FixedSize (put)

variable {x : Nat} {root : PoseidonDomain} {sp : SectorProof} {used : Bytes} {count : Nat}
  {cur commR : PoseidonDomain} {elem : PathElement PoseidonDomain}

section Paths

theorem int64_eq_index {index : Nat} (small : x < 2 ^ 63) (word : index < 2 ^ 64) :
    (x : Int) = int64 index ↔ x = index := by
  grind [int64]

variable (cur : PoseidonDomain) (elem : PathElement PoseidonDomain)

def combineStep (state : List PoseidonDomain × Nat) (x : Nat) :
    Go (List PoseidonDomain × Nat) :=
  if (x : Int) = int64 elem.index.toNat then .ok (state.1 ++ [cur], state.2)
  else do
    let sibling ← readAt elem.hashes.items state.2
    .ok (state.1 ++ [sibling], state.2 + 1)

theorem combine_eq_forRange :
    combine cur elem = (forRange (elem.hashes.items.length + 1) (combineStep cur elem) ([], 0) >>=
      fun state => .ok state.1) := rfl

theorem combineStep_sibling {next : Nat} {front : List PoseidonDomain}
    (other : x ≠ elem.index.toNat) (inside : x ≤ elem.hashes.items.length)
    (bound : next < elem.hashes.items.length) :
    combineStep cur elem (front, next) x = .ok (front ++ [elem.hashes.items[next]], next + 1) := by
  have small := elem.hashes.length_lt
  rw [combineStep, if_neg, readAt_of_lt bound]
  · rfl
  · rw [int64_eq_index (by omega) elem.index.toNat_lt]
    exact other

theorem combine_below (below : count ≤ elem.index.toNat)
    (inside : count ≤ elem.hashes.items.length) :
    forRange count (combineStep cur elem) ([], 0) = .ok (elem.hashes.items.take count, count) := by
  induction count with
  | zero => rfl
  | succ count ih =>
    rw [forRange_succ, ih (by omega) (by omega), ok_bind,
      combineStep_sibling cur elem (by omega) (by omega) (by omega), take_add_one,
      getElem?_eq_getElem (by omega)]
    rfl

theorem combine_above (within : elem.index.toNat + count ≤ elem.hashes.items.length) :
    forRange (elem.index.toNat + 1 + count) (combineStep cur elem) ([], 0) =
      .ok (elem.hashes.items.take elem.index.toNat ++
        cur :: (elem.hashes.items.drop elem.index.toNat).take count,
        elem.index.toNat + count) := by
  induction count with
  | zero =>
    rw [forRange_succ, combine_below cur elem le_rfl within, ok_bind, combineStep, if_pos]
    · rfl
    · have small := elem.hashes.length_lt
      rw [int64_eq_index (by omega) elem.index.toNat_lt]
  | succ count ih =>
    rw [← Nat.add_assoc, forRange_succ, ih (by omega), ok_bind,
      combineStep_sibling cur elem (by omega) (by omega) (by omega), take_add_one,
      getElem?_drop, getElem?_eq_getElem (by omega), append_assoc]
    rfl

/-- The current node stands at the index among the siblings; an index outside of them makes the
loop run past the last sibling. -/
theorem combine_eq :
    combine cur elem =
      if elem.index.toNat ≤ elem.hashes.items.length then
        .ok (elem.hashes.items.take elem.index.toNat ++
          cur :: elem.hashes.items.drop elem.index.toNat)
      else panics "index out of range" := by
  rw [combine_eq_forRange]
  split
  · rename_i inside
    obtain ⟨above, total⟩ := Nat.exists_eq_add_of_le inside
    have all : (elem.hashes.items.drop elem.index.toNat).take above =
        elem.hashes.items.drop elem.index.toNat := by
      apply take_of_length_le
      rw [length_drop]
      omega
    rw [show elem.hashes.items.length + 1 = elem.index.toNat + 1 + above by omega,
      combine_above cur elem (by omega), all]
    rfl
  · rename_i outside
    have small := elem.hashes.length_lt
    rw [forRange_succ, combine_below cur elem (by omega) le_rfl, ok_bind, combineStep, if_neg]
    · rw [readAt, getElem?_eq_none le_rfl]
      rfl
    · rw [int64_eq_index small elem.index.toNat_lt]
      omega

end Paths

section Soundness

variable (ext : PoStExternals)

/-- A path element leads from a node to its parent: the node stands at the index among the
seven siblings. -/
structure ElementHashes (cur : PoseidonDomain) (elem : PathElement PoseidonDomain)
    (parent : PoseidonDomain) : Prop where
  inside : elem.index.toNat ≤ elem.hashes.items.length
  siblings : elem.hashes.items.length = 7
  hashed : ext.poseidon 8 (elem.hashes.items.take elem.index.toNat ++
    cur :: elem.hashes.items.drop elem.index.toNat) = .ok parent

inductive PathHashes : PoseidonDomain → List (PathElement PoseidonDomain) → PoseidonDomain → Prop
  | nil (cur : PoseidonDomain) : PathHashes cur [] cur
  | cons {cur parent root : PoseidonDomain} {elem : PathElement PoseidonDomain}
      {rest : List (PathElement PoseidonDomain)} (first : ElementHashes ext cur elem parent)
      (others : PathHashes parent rest root) : PathHashes cur (elem :: rest) root

/-- The paths of a proof, one on top of the other, hash from its leaf to the root. -/
def MerkleProof.HashesTo (mp : MerkleProof PoseidonDomain) (root : PoseidonDomain) : Prop :=
  (∃ single, mp.data.single = some single ∧
    PathHashes ext single.leaf single.path.path.items root) ∨
  (∃ sub base, mp.data.sub = some sub ∧
    PathHashes ext sub.leaf sub.baseProof.path.items base ∧
    PathHashes ext base sub.subProof.path.items root) ∨
  ∃ top base middle, mp.data.top = some top ∧
    PathHashes ext top.leaf top.baseProof.path.items base ∧
    PathHashes ext base top.subProof.path.items middle ∧
    PathHashes ext middle top.topProof.path.items root

variable {ext}

theorem poseidonHashMulti_eq_ok {arity : Nat} {vals : List PoseidonDomain}
    {digest : PoseidonDomain} :
    poseidonHashMulti ext arity vals = .ok digest ↔
      vals.length = arity ∧ ext.poseidon arity vals = .ok digest := by
  unfold poseidonHashMulti
  split
  · rename_i wrong
    simp [panics, wrong]
  · grind [panics]

theorem element_hashes {parent : PoseidonDomain} :
    combine cur elem >>= poseidonHashMulti ext 8 = .ok parent ↔
      ElementHashes ext cur elem parent := by
  rw [combine_eq]
  split
  · rename_i inside
    rw [ok_bind, poseidonHashMulti_eq_ok, length_append, length_take, length_cons, length_drop]
    constructor
    · rintro ⟨arity, hashed⟩
      exact ⟨inside, by omega, hashed⟩
    · rintro ⟨_, siblings, hashed⟩
      exact ⟨by omega, hashed⟩
  · rename_i outside
    constructor
    · intro impossible
      cases impossible
    · intro hashes
      exact absurd hashes.inside outside

theorem reconstructPath_eq_ok {leaf : PoseidonDomain} {path : InclusionPath PoseidonDomain} :
    reconstructPath ext leaf path = .ok root ↔ PathHashes ext leaf path.path.items root := by
  unfold reconstructPath
  induction path.path.items generalizing leaf with
  | nil =>
    constructor
    · intro same
      cases same
      exact .nil _
    · rintro ⟨⟩
      rfl
  | cons elem rest ih =>
    constructor
    · intro returned
      obtain ⟨parent, first, others⟩ := bind_eq_ok.mp returned
      exact .cons (element_hashes.mp first) (ih.mp others)
    · intro hashes
      cases hashes with
      | cons first others =>
        exact bind_eq_ok.mpr ⟨_, element_hashes.mpr first, ih.mpr others⟩

variable {mp : MerkleProof PoseidonDomain} {sec : FallbackPoStSectorProof}

theorem checkMerkleProof_sound (checked : checkMerkleProof ext mp = .ok root) :
    mp.HashesTo ext root := by
  unfold checkMerkleProof at checked
  split at checked
  · rename_i single found
    obtain ⟨final, reached, same⟩ := bind_eq_ok.mp checked
    split at same <;> cases same
    · exact .inl ⟨single, found, reconstructPath_eq_ok.mp reached⟩
  · rename_i sub _ found
    obtain ⟨base, reachedBase, checked⟩ := bind_eq_ok.mp checked
    obtain ⟨final, reached, same⟩ := bind_eq_ok.mp checked
    split at same <;> cases same
    · exact .inr (.inl ⟨sub, base, found, reconstructPath_eq_ok.mp reachedBase,
        reconstructPath_eq_ok.mp reached⟩)
  · rename_i top _ _ found
    obtain ⟨base, reachedBase, checked⟩ := bind_eq_ok.mp checked
    obtain ⟨middle, reachedMiddle, checked⟩ := bind_eq_ok.mp checked
    obtain ⟨final, reached, same⟩ := bind_eq_ok.mp checked
    split at same <;> cases same
    · exact .inr (.inr ⟨top, base, middle, found, reconstructPath_eq_ok.mp reachedBase,
        reconstructPath_eq_ok.mp reachedMiddle, reconstructPath_eq_ok.mp reached⟩)
  · cases checked

theorem checkInclusion_sound (checked : checkInclusion ext sec sp mp = .ok ()) :
    mp.HashesTo ext sp.commRLast := by
  obtain ⟨root, found, compared⟩ := bind_eq_ok.mp checked
  split at compared
  · cases compared
  · rename_i same
    rw [← not_not.mp same]
    exact checkMerkleProof_sound (wrap_eq_ok.mp found)

theorem checkCommR_eq_true {commC commRLast claimed : PoseidonDomain} :
    checkCommR ext commC commRLast claimed = .ok true ↔
      ext.poseidon 2 [commC, commRLast] = .ok claimed := by
  unfold checkCommR
  rw [bind_eq_ok]
  constructor
  · rintro ⟨computed, hashed, same⟩
    rw [← beq_iff_eq.mp (Except.ok.inj same)]
    exact (poseidonHashMulti_eq_ok.mp hashed).2
  · intro hashed
    exact ⟨claimed, poseidonHashMulti_eq_ok.mpr ⟨rfl, hashed⟩, by rw [beq_self_eq_true]⟩

theorem checkSectorProof_sound {pIndex : Nat}
    (checked : checkSectorProof ext pIndex sec sp = .ok ()) :
    ext.poseidon 2 [sp.commC, sp.commRLast] = .ok sec.commR ∧
      ∀ mp ∈ sp.inclusionProofs.items, mp.HashesTo ext sp.commRLast := by
  obtain ⟨valid, compared, checked⟩ := bind_eq_ok.mp checked
  cases valid with
  | false => cases checked
  | true =>
    refine ⟨checkCommR_eq_true.mp compared, fun mp member => ?_⟩
    exact checkInclusion_sound (forEach_eq_ok.mp checked mp member)

theorem collectReplicas_challenged {challenged : List (SectorInfo ext)}
    {replicas : UInt64 → Option PoseidonDomain}
    (collected : collectReplicas ext challenged = .ok replicas) {number : UInt64}
    (found : replicas number = some commR) :
    ∃ info ∈ challenged, info.sectorNumber = number ∧ replicaCommitment ext info = .ok commR := by
  suffices ∀ start : UInt64 → Option PoseidonDomain,
      challenged.foldlM (fun replicas info => do
        let commR ← replicaCommitment ext info
        .ok (fun number => if number = info.sectorNumber then some commR else replicas number))
        start = .ok replicas →
      start number = some commR ∨ ∃ info ∈ challenged, info.sectorNumber = number ∧
        replicaCommitment ext info = .ok commR by
    obtain impossible | challenged := this _ collected
    · cases impossible
    · exact challenged
  clear collected
  induction challenged with
  | nil =>
    intro start same
    cases same
    exact .inl found
  | cons info rest ih =>
    intro start folded
    obtain ⟨middle, stored, folded⟩ := bind_eq_ok.mp folded
    obtain ⟨commitment, taken, same⟩ := bind_eq_ok.mp stored
    grind

structure Checked (pvi : WindowPoStVerifyInfo ext) (vp : FallbackPoStSectorProof) : Prop where
  challenged : ∃ info ∈ pvi.challengedSectors, info.sectorNumber = vp.sectorId ∧
    replicaCommitment ext info = .ok vp.commR
  commR : ∀ sp ∈ vp.vanillaProof.sectors.items,
    ext.poseidon 2 [sp.commC, sp.commRLast] = .ok vp.commR
  paths : ∀ sp ∈ vp.vanillaProof.sectors.items, ∀ mp ∈ sp.inclusionProofs.items,
    mp.HashesTo ext sp.commRLast

theorem verifyWindowPoStVanilla_checked {pvi : WindowPoStVerifyInfo ext}
    (accepted : pvi.verifyWindowPoStVanilla ext = .ok true) :
    ∃ proof vp rest, pvi.proofs = [proof] ∧
      decodeFallbackPoStSectorProof.run proof.proofBytes = .ok (vp, rest) ∧ Checked pvi vp := by
  unfold WindowPoStVerifyInfo.verifyWindowPoStVanilla at accepted
  split at accepted
  · cases accepted
  obtain ⟨replicas, collected, accepted⟩ := bind_eq_ok.mp accepted
  split at accepted
  · rename_i proof single
    obtain ⟨⟨vp, rest⟩, decoded, accepted⟩ := bind_eq_ok.mp accepted
    obtain ⟨ssize, _, accepted⟩ := bind_eq_ok.mp accepted
    refine ⟨proof, vp, rest, single, wrap_eq_ok.mp decoded, ?_⟩
    -- The type is Window and there is one proof, so only the sector is left to check.
    obtain ⟨_, checked, _⟩ := bind_eq_ok.mp (accepted : forEach [[vp]].zipIdx _ >>= _ = .ok true)
    have sector := forEach_eq_ok.mp (forEach_eq_ok.mp checked ([vp], 0) (by simp)) vp (by simp)
    unfold checkSector at sector
    split at sector
    · cases sector
    · rename_i commR found
      split at sector
      · cases sector
      · rename_i same
        rw [not_not.mp same] at found
        have each := fun sp member => checkSectorProof_sound (forEach_eq_ok.mp sector sp member)
        exact ⟨collectReplicas_challenged collected found, fun sp member => (each sp member).1,
          fun sp member => (each sp member).2⟩
  · cases accepted

end Soundness

section Vacuous

def pathlessSector (commC commRLast : PoseidonDomain) : Bytes :=
  put (0 : UInt64) ++ (put commC ++ put commRLast)

/-- A proof in bytes in which every sector proof has no inclusion proofs. -/
def pathlessProof (sectorId : UInt64) (commR : PoseidonDomain)
    (sectors : List (PoseidonDomain × PoseidonDomain)) : Bytes :=
  put sectorId ++ (put commR ++
    (put (UInt64.ofNat sectors.length) ++
      (sectors.map fun sector => pathlessSector sector.1 sector.2).flatten))

/-- The bytes begin with a proof that has no inclusion proof in any sector. -/
def Pathless (proofBytes : Bytes) : Prop :=
  ∃ sectorId commR sectors rest, sectors.length < 2 ^ 63 ∧
    proofBytes = pathlessProof sectorId commR sectors ++ rest

theorem reads_pathlessSector :
    Reads decodeSectorProof used sp ∧ sp.inclusionProofs.items = [] ↔
      used = pathlessSector sp.commC sp.commRLast ∧ sp.inclusionProofs = ⟨some [], by simp⟩ := by
  constructor
  · rintro ⟨reads, none⟩
    obtain ⟨inclusionProofs, _, _, rfl, tookProofs, reads⟩ := reads_bind.mp reads
    obtain ⟨commC, _, _, rfl, tookCommC, reads⟩ := reads_bind.mp reads
    obtain ⟨commRLast, tookCommRLast, rfl⟩ := reads_bind_pure.mp reads
    simp only [decodeHasherDomain, reads_within, reads_readLE] at tookCommC tookCommRLast
    obtain ⟨parts, rfl, tookParts, made⟩ := reads_readSlice.mp tookProofs
    rw [none] at tookParts made
    cases tookParts
    refine ⟨?_, ?_⟩
    · rw [none, tookCommC, tookCommRLast]
      rfl
    · obtain ⟨contents, fits⟩ := inclusionProofs
      cases made
      rfl
  · rintro ⟨rfl, none⟩
    obtain ⟨inclusionProofs, commC, commRLast⟩ := sp
    cases none
    refine ⟨reads_bind.mpr ⟨⟨some [], by simp⟩, _, _, rfl,
      reads_readSlice.mpr ⟨[], rfl, .nil, rfl⟩, ?_⟩, rfl⟩
    refine reads_bind.mpr ⟨commC, _, _, rfl, ?_, reads_bind_pure.mpr ⟨commRLast, ?_, rfl⟩⟩ <;>
      simp only [decodeHasherDomain, reads_within, reads_readLE]

variable {vp : FallbackPoStSectorProof}

theorem reads_decodeFallback :
    Reads decodeFallbackPoStSectorProof used vp ↔
      ∃ parts, used = put vp.sectorId ++ (put vp.commR ++
          (put (UInt64.ofNat vp.vanillaProof.sectors.items.length) ++
            flatten parts)) ∧
        Forall₂ (Reads decodeSectorProof) parts vp.vanillaProof.sectors.items ∧
        vp.vanillaProof.sectors.contents = some vp.vanillaProof.sectors.items := by
  constructor
  · intro reads
    obtain ⟨sectorId, _, _, rfl, tookId, reads⟩ := reads_bind.mp reads
    obtain ⟨commR, _, _, rfl, tookCommR, reads⟩ := reads_bind.mp reads
    obtain ⟨vanillaProof, tookProof, rfl⟩ := reads_bind_pure.mp reads
    obtain ⟨sectors, tookSectors, rfl⟩ := reads_bind_pure.mp (reads_within.mp tookProof)
    obtain ⟨parts, rfl, tookParts, made⟩ := reads_readSlice.mp tookSectors
    simp only [decodeHasherDomain, reads_within, reads_readLE] at tookId tookCommR
    rw [tookId, tookCommR]
    exact ⟨parts, rfl, reads_within_eq ▸ tookParts, made⟩
  · obtain ⟨sectorId, commR, ⟨sectors⟩⟩ := vp
    rintro ⟨parts, rfl, tookParts, made⟩
    refine reads_bind.mpr ⟨sectorId, _, _, rfl, ?_, reads_bind.mpr ⟨commR, _, _, rfl, ?_,
      reads_bind_pure.mpr ⟨⟨sectors⟩, reads_within.mpr (reads_bind_pure.mpr ⟨sectors, ?_, rfl⟩),
        rfl⟩⟩⟩
    · simp only [reads_within, reads_readLE]
    · simp only [decodeHasherDomain, reads_within, reads_readLE]
    · refine reads_readSlice.mpr ⟨parts, rfl, ?_, made⟩
      rwa [reads_within_eq]

theorem parts_pathless {parts : List Bytes} {sectors : List SectorProof}
    (reads : Forall₂ (Reads decodeSectorProof) parts sectors)
    (none : ∀ sp ∈ sectors, sp.inclusionProofs.items = []) :
    parts = sectors.map fun sp => pathlessSector sp.commC sp.commRLast := by
  induction reads with
  | nil => rfl
  | cons first _ ih =>
    have here := (reads_pathlessSector.mp ⟨first, none _ mem_cons_self⟩).1
    grind

def pathlessValue (sector : PoseidonDomain × PoseidonDomain) : SectorProof :=
  ⟨.empty, sector.1, sector.2⟩

theorem reads_pathlessValue {sector : PoseidonDomain × PoseidonDomain} :
    Reads decodeSectorProof (pathlessSector sector.1 sector.2) (pathlessValue sector) := by
  refine (reads_pathlessSector.mpr ?_).1
  exact ⟨rfl, rfl⟩

theorem reads_pathlessProof {sectorId : UInt64} {sectors : List (PoseidonDomain × PoseidonDomain)}
    (small : sectors.length < 2 ^ 63) :
    Reads decodeFallbackPoStSectorProof (pathlessProof sectorId commR sectors)
      ⟨sectorId, commR, ⟨⟨some (sectors.map pathlessValue), by simpa using small⟩⟩⟩ := by
  refine reads_decodeFallback.mpr
    ⟨sectors.map fun sector => pathlessSector sector.1 sector.2, ?_, ?_, rfl⟩
  · simp only [pathlessProof, Slice.items_some, length_map]
  · rw [Slice.items_some, forall₂_map_left_iff, forall₂_map_right_iff,
      forall₂_same]
    exact fun sector _ => reads_pathlessValue

/-- Bytes that decode are pathless exactly when no decoded sector proof has an inclusion proof. -/
theorem pathless_iff {proofBytes rest : Bytes}
    (decoded : decodeFallbackPoStSectorProof.run proofBytes = .ok (vp, rest)) :
    Pathless proofBytes ↔ ∀ sp ∈ vp.vanillaProof.sectors.items, sp.inclusionProofs.items = [] := by
  constructor
  · rintro ⟨sectorId, commR, sectors, other, small, rfl⟩ sp member
    rw [reads_pathlessProof small] at decoded
    cases decoded
    obtain ⟨sector, _, rfl⟩ := mem_map.mp member
    rfl
  · intro none
    obtain ⟨used, rfl, reads⟩ := Reader.reads_of_run decoded
    obtain ⟨parts, rfl, tookParts, _⟩ := reads_decodeFallback.mp reads
    rw [parts_pathless tookParts none]
    refine ⟨vp.sectorId, vp.commR,
      vp.vanillaProof.sectors.items.map fun sp => (sp.commC, sp.commRLast), rest, ?_, ?_⟩
    · simpa using vp.vanillaProof.sectors.length_lt
    · simp only [pathlessProof, length_map, map_map]
      rfl

end Vacuous

/-- An accepted proof has everything the verifier is for exactly when its bytes do not begin with
a proof without inclusion proofs: such a proof is accepted as well. -/
theorem windowPoSt_sound_iff (ext : PoStExternals) (pvi : WindowPoStVerifyInfo ext)
    (accepted : pvi.verifyWindowPoStVanilla ext = .ok true) :
    (∃ proof vp rest, pvi.proofs = [proof] ∧
      decodeFallbackPoStSectorProof.run proof.proofBytes = .ok (vp, rest) ∧
      (∃ sp ∈ vp.vanillaProof.sectors.items, sp.inclusionProofs.items ≠ []) ∧
      (∃ info ∈ pvi.challengedSectors, info.sectorNumber = vp.sectorId ∧
        replicaCommitment ext info = .ok vp.commR) ∧
      ∀ sp ∈ vp.vanillaProof.sectors.items,
        ext.poseidon 2 [sp.commC, sp.commRLast] = .ok vp.commR ∧
        ∀ mp ∈ sp.inclusionProofs.items, mp.HashesTo ext sp.commRLast) ↔
      ∀ proof ∈ pvi.proofs, ¬Pathless proof.proofBytes := by
  obtain ⟨proof, vp, rest, single, decoded, checked⟩ := verifyWindowPoStVanilla_checked accepted
  rw [single, forall_mem_singleton, pathless_iff decoded]
  constructor
  · grind
  · intro some_path
    push Not at some_path
    exact ⟨proof, vp, rest, rfl, decoded, some_path, checked.challenged,
      fun sp member => ⟨checked.commR sp member, checked.paths sp member⟩⟩

def sampleExternals : PoStExternals where
  Cid := Node
  cidToReplicaCommitmentV1 cid := .ok cid.toList
  RegisteredPoStProof := Nat
  sectorSize proof := if proof = 8 then .ok (32 <<< 30) else .error "unsupported proof type"
  poseidon _ vals := .ok (mixHash (vals.flatMap Vector.toList))

def constNode (byte : UInt8) : Node := Vector.replicate 32 byte

def sampleInfo (commR : UInt8) (proofBytes : Bytes) : WindowPoStVerifyInfo sampleExternals where
  randomness := replicate 32 0
  proofs := [⟨(8 : Nat), proofBytes⟩]
  challengedSectors := [⟨5, constNode commR⟩]

def samplePoStBytes : Bytes :=
  put (5 : UInt64) ++ replicate 32 3 ++ put (1 : UInt64) ++
    (put (1 : UInt64) ++
      (put (0 : UInt32) ++ replicate 32 1 ++ replicate 32 0 ++
        put (1 : UInt64) ++ (put (7 : UInt64) ++ replicate 224 0 ++ put (0 : UInt64))) ++
      replicate 32 0 ++ replicate 32 1)

def samplePoStProof : FallbackPoStSectorProof :=
  ⟨5, constNode 3, ⟨⟨some [⟨⟨some [⟨{ single := some ⟨constNode 1, constNode 0,
    ⟨⟨some [⟨⟨some (replicate 7 (constNode 0)), by simp⟩, 0⟩], by simp⟩⟩⟩ }⟩], by simp⟩,
    constNode 0, constNode 1⟩], by simp⟩⟩⟩

set_option maxRecDepth 20000 in
/-- An inclusion path that is really checked. -/
theorem windowPoSt_sound_sample :
    (sampleInfo 3 samplePoStBytes).verifyWindowPoStVanilla sampleExternals = .ok true ∧
      ∃ proof vp rest, (sampleInfo 3 samplePoStBytes).proofs = [proof] ∧
        decodeFallbackPoStSectorProof.run proof.proofBytes = .ok (vp, rest) ∧
        (∃ sp ∈ vp.vanillaProof.sectors.items, sp.inclusionProofs.items ≠ []) ∧
        (∃ info ∈ (sampleInfo 3 samplePoStBytes).challengedSectors,
          info.sectorNumber = vp.sectorId ∧
          replicaCommitment sampleExternals info = .ok vp.commR) ∧
        ∀ sp ∈ vp.vanillaProof.sectors.items,
          sampleExternals.poseidon 2 [sp.commC, sp.commRLast] = .ok vp.commR ∧
          ∀ mp ∈ sp.inclusionProofs.items, mp.HashesTo sampleExternals sp.commRLast := by
  have accepted :
      (sampleInfo 3 samplePoStBytes).verifyWindowPoStVanilla sampleExternals = .ok true := rfl
  have decoded : decodeFallbackPoStSectorProof.run samplePoStBytes = .ok (samplePoStProof, []) :=
    rfl
  have some_path : ¬Pathless samplePoStBytes := by
    rw [pathless_iff decoded]
    exact fun none => cons_ne_nil _ _ (none _ mem_cons_self)
  refine ⟨accepted, (windowPoSt_sound_iff sampleExternals _ accepted).mpr fun proof member => ?_⟩
  obtain rfl := mem_singleton.mp member
  exact some_path

set_option maxRecDepth 20000 in
/-- A proof with no sector proofs at all is accepted. -/
theorem windowPoSt_accepts_no_sector :
    ∃ vp, (sampleInfo 3 (pathlessProof 5 (constNode 3) [])).verifyWindowPoStVanilla
        sampleExternals = .ok true ∧
      decodeFallbackPoStSectorProof.run (pathlessProof 5 (constNode 3) []) = .ok (vp, []) ∧
      vp.vanillaProof.sectors.items = [] :=
  ⟨⟨5, constNode 3, ⟨⟨some [], by simp⟩⟩⟩, rfl, rfl, rfl⟩

section Panics

variable {ext : PoStExternals}

def MerkleProof.elements (mp : MerkleProof PoseidonDomain) : List (PathElement PoseidonDomain) :=
  match mp.data.single, mp.data.sub, mp.data.top with
  | some single, _, _ => single.path.path.items
  | none, some sub, _ => sub.baseProof.path.items ++ sub.subProof.path.items
  | none, none, some top =>
    top.baseProof.path.items ++ top.subProof.path.items ++ top.topProof.path.items
  | none, none, none => []

def PathElement.Octal (elem : PathElement PoseidonDomain) : Prop :=
  elem.hashes.items.length = 7 ∧ elem.index.toNat ≤ 7

variable (total : ∀ vals, vals.length = 8 → ∃ digest, ext.poseidon 8 vals = .ok digest)
include total

theorem element_cases :
    (elem.Octal ∧ ∃ parent, combine cur elem >>= poseidonHashMulti ext 8 = .ok parent) ∨
      ¬elem.Octal ∧ ∃ message, combine cur elem >>= poseidonHashMulti ext 8 = panics message := by
  rw [combine_eq]
  split
  case isTrue inside =>
    have length : (elem.hashes.items.take elem.index.toNat ++
        cur :: elem.hashes.items.drop elem.index.toNat).length = elem.hashes.items.length + 1 := by
      rw [length_append, length_take, length_cons, length_drop]
      omega
    rw [ok_bind, poseidonHashMulti]
    by_cases seven : elem.hashes.items.length = 7
    · obtain ⟨digest, hashed⟩ := total _ (length.trans (by rw [seven]))
      rw [if_neg (by omega), hashed]
      exact .inl ⟨⟨seven, by omega⟩, digest, rfl⟩
    · rw [if_pos (by omega)]
      exact .inr ⟨fun octal => seven octal.1, _, rfl⟩
  case isFalse outside => exact .inr ⟨fun octal => outside (by rw [octal.1]; exact octal.2), _, rfl⟩

theorem returns_path {rest : PoseidonDomain → Go PoseidonDomain} {after : Prop}
    (rests : ∀ root, Returns (rest root) ↔ after) (leaf : PoseidonDomain)
    (path : InclusionPath PoseidonDomain) :
    Returns (reconstructPath ext leaf path >>= rest) ↔
      (∀ elem ∈ path.path.items, elem.Octal) ∧ after := by
  unfold reconstructPath
  induction path.path.items generalizing leaf with
  | nil => simpa [Except.pure] using rests leaf
  | cons elem others ih =>
    rw [foldlM_cons, forall_mem_cons]
    rcases element_cases total with ⟨octal, parent, hashed⟩ | ⟨bad, message, failed⟩
    · rw [hashed, ok_bind, ih]
      simp only [octal, true_and]
    · rw [failed]
      exact iff_of_false (not_returns_panics message) fun both => bad both.1.1

/-- The check comes back exactly from the proofs whose elements all have the arity of the hash. -/
theorem checkMerkleProof_returns_iff (mp : MerkleProof PoseidonDomain) :
    Returns (checkMerkleProof ext mp) ↔ ∀ elem ∈ mp.elements, elem.Octal := by
  have compared (expected : PoseidonDomain) (message : String) (final : PoseidonDomain) :
      Returns (if final ≠ expected then fail message else .ok final : Go _) ↔ True := by
    split
    · exact iff_true_intro (.inr ⟨_, rfl⟩)
    · exact iff_true_intro (.inl ⟨_, rfl⟩)
  match mp with
  | ⟨⟨some single, _, _⟩⟩ =>
    refine (returns_path total (compared _ _) single.leaf single.path).trans ?_
    simp [MerkleProof.elements]
  | ⟨⟨none, some sub, _⟩⟩ =>
    refine (returns_path total (fun base => returns_path total (compared _ _) base sub.subProof)
      sub.leaf sub.baseProof).trans ?_
    simp only [MerkleProof.elements, forall_mem_append, and_true]
  | ⟨⟨none, none, some top⟩⟩ =>
    refine (returns_path total (fun base => returns_path total (fun middle =>
      returns_path total (compared _ _) middle top.topProof) base top.subProof)
        top.leaf top.baseProof).trans ?_
    simp only [MerkleProof.elements, forall_mem_append, and_true, and_assoc]
  | ⟨⟨none, none, none⟩⟩ => exact iff_of_true (.inr ⟨_, rfl⟩) nofun

end Panics

def zeroPath (siblings : Nat) : InclusionPath PoseidonDomain :=
  ⟨⟨some [⟨⟨some (replicate (min siblings 7) (constNode 0)), by simp⟩, 0⟩], by simp⟩⟩

theorem checkMerkleProof_returns_iff_single :
    Returns (checkMerkleProof sampleExternals
      ⟨{ single := some ⟨constNode 1, constNode 0, zeroPath 7⟩ }⟩) :=
  (checkMerkleProof_returns_iff (fun _ _ => ⟨_, rfl⟩) _).mpr (by
    simp [MerkleProof.elements, zeroPath, Slice.items, PathElement.Octal])

/-- The right proof of a leaf of zeros in a 64 GiB sector: the topmost element has one sibling. -/
theorem top_proof_panics :
    checkMerkleProof sampleExternals ⟨{ top := some ⟨zeroPath 7, zeroPath 7, zeroPath 1,
      constNode 13, constNode 0⟩ }⟩ =
      panics "poseidonhashMulti called with invalid amount of values" := rfl

end Curio.Proof
