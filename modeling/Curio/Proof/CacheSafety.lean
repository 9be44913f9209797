import Curio.Proof.CachedProof

/-! What a proof over a cached layer is worth when the layer holds anything at all. -/

namespace Curio.Proof

open GoRuntime BinaryMerkle List

def Safe (good : RawMerkleProof → Prop) : Go (Option RawMerkleProof) → Prop
  | .ok none => True
  | .ok (some proof) => good proof
  | .error (.error _) => True
  | .error (.panic _) => False
  | .error .hang => False

variable {k layerIdx index : Nat} {layer : List Node}

section Sections

variable {ext : Externals} (documented : ext.Documented)
include documented

/-- Building over a valid piece size fails with an error or gives a full tree. -/
theorem buildSha254Memtree_cases (small : k ≤ 56) {rawIn : Stream} :
    (∃ message, buildSha254Memtree ext rawIn (127 * 2 ^ k) = fail message) ∨
      128 * 2 ^ k ≤ maxMemtreeSize ∧ ∃ leaves memtree, leaves.length = 2 ^ (k + 2) ∧
        hashLeaves ext leaves.length leaves = .ok memtree ∧
        buildSha254Memtree ext rawIn (127 * 2 ^ k) = .ok memtree := by
  have bound : 2 ^ k ≤ 2 ^ 56 := Nat.pow_le_pow_right (by decide) small
  have positive := Nat.two_pow_pos k
  have size := documented.padded_blocks (2 ^ k) (by omega)
  unfold buildSha254Memtree
  rw [size]
  by_cases large : maxMemtreeSize < 128 * 2 ^ k
  · left
    rw [if_pos large]
    exact ⟨_, rfl⟩
  · rw [if_neg large]
    rcases readFull_cases rawIn (127 * 2 ^ k) with ⟨message, failed⟩ | ⟨buffer, read, length⟩
    · left
      rw [failed]
      exact ⟨_, rfl⟩
    · right
      have leaves := documented.pad_length (2 ^ k) buffer length
      have some : ext.fr32Pad buffer ≠ [] := ne_nil_of_length_pos (by omega)
      obtain ⟨memtree, built, _⟩ := hashLeaves_spec ext some
      have count : 128 * 2 ^ k / nodeSize = (ext.fr32Pad buffer).length := by
        simp only [nodeSize]
        omega
      refine ⟨Nat.le_of_not_lt large, ext.fr32Pad buffer, memtree, ?_, built, ?_⟩
      · rw [leaves]
        ring
      · rw [read, wrap_ok, ok_bind, count, built]

theorem sectionProof_cases {file : PieceFile} {params : CacheProofParams} (small : k ≤ 56)
    (size : params.subrootSize = 128 * 2 ^ k) :
    (∃ message, sectionProof ext file params = fail message) ∨
      128 * 2 ^ k ≤ maxMemtreeSize ∧ ∃ sub, sectionProof ext file params = .ok sub ∧
        sub.proof.length = k + 2 ∧
        climb ext.parent params.subTreeChallenge.toNat sub.leaf sub.proof = sub.root := by
  have bound : 2 ^ k ≤ 2 ^ 56 := Nat.pow_le_pow_right (by decide) small
  unfold sectionProof
  rw [size, documented.unpadded_blocks (2 ^ k) (by omega)]
  rcases buildSha254Memtree_cases documented small with
    ⟨message, failed⟩ | ⟨fits, leaves, memtree, length, built, returned⟩
  · left
    rw [failed]
    exact ⟨_, rfl⟩
  · rw [returned, wrap_ok, ok_bind]
    have positive := Nat.two_pow_pos (k + 2)
    have some : leaves ≠ [] := ne_nil_of_length_pos (by omega)
    by_cases inside : (memtree.length + 1) / 2 = leaves.length ∧ 0 ≤ params.subTreeChallenge ∧
        params.subTreeChallenge < leaves.length
    · right
      obtain ⟨path, _, proved, depth, climbed⟩ :=
        memtreeProof_inside built some inside.1 inside.2.1 inside.2.2
      refine ⟨fits, _, wrap_eq_ok.mpr proved, ?_, climbed⟩
      rw [length, levelCounts_two_pow, length_map, length_range] at depth
      exact Nat.succ.inj depth
    · left
      obtain ⟨message, failed⟩ := memtreeProof_outside built some inside
      rw [failed]
      exact ⟨_, rfl⟩

omit documented in
theorem uint64_leaves_zero (high : 59 ≤ layerIdx) :
    uint64 (int64 (2 ^ layerIdx) * nodeSize) = 0 := by
  have whole : (2 : Int) ^ layerIdx * (nodeSize : Int) = 2 ^ 64 * 2 ^ (layerIdx - 59) := by
    have exponent : layerIdx + 5 = 64 + (layerIdx - 59) := by omega
    rw [show (nodeSize : Int) = 2 ^ 5 from rfl, ← pow_add, ← pow_add, exponent]
  have word : int64 (2 ^ layerIdx) * nodeSize % 2 ^ 64 = 2 ^ layerIdx * nodeSize % 2 ^ 64 := by
    have same := int64_emod (2 ^ layerIdx)
    simp only [nodeSize]
    omega
  rw [uint64, word, whole, Int.mul_emod_right]
  rfl

/-- The parameters of any layer index that is not negative. Sections of a layer from two on match
the nodes of that layer; above 58 the shift leaves nothing of the section. -/
theorem computeCacheProofParams_cases {challengedLeaf : Nat} (bounded : challengedLeaf < 2 ^ 58) :
    ∃ params k, computeCacheProofParams ext layerIdx challengedLeaf = .ok params ∧
      params.snapshotNodeIndex = (challengedLeaf / 2 ^ layerIdx : Nat) ∧ k ≤ 56 ∧
      params.subrootSize = 128 * 2 ^ k ∧
      (2 ≤ layerIdx → layerIdx ≤ 58 → k + 2 = layerIdx ∧
        params.subTreeChallenge = (challengedLeaf % 2 ^ layerIdx : Nat)) ∧
      (59 ≤ layerIdx → params.sectionLength = 0 ∧ params.sectionOffset = 0) := by
  have leaf := Nat.div_add_mod' challengedLeaf (2 ^ layerIdx)
  by_cases middle : 2 ≤ layerIdx ∧ layerIdx ≤ 58
  · obtain ⟨k, rfl⟩ := Nat.exists_eq_add_of_le' middle.1
    have computed := computeCacheProofParams_eq documented (by omega : k ≤ 56)
      (Nat.mod_lt challengedLeaf (Nat.two_pow_pos (k + 2))) (by rw [leaf]; exact bounded)
    rw [leaf] at computed
    exact ⟨_, k, computed, rfl, by omega, rfl, fun _ _ => ⟨rfl, rfl⟩, fun high => by omega⟩
  · have shifted : (challengedLeaf : Int) >>> layerIdx = (challengedLeaf / 2 ^ layerIdx : Nat) := by
      rw [Int.shiftRight_eq_div_pow]
      rfl
    have nodes : uint64 (int64 (2 ^ layerIdx) * nodeSize) ≤ 64 := by
      rcases (by omega : layerIdx = 0 ∨ layerIdx = 1 ∨ 59 ≤ layerIdx) with rfl | rfl | high
      · decide
      · decide
      · rw [uint64_leaves_zero high]
        exact Nat.zero_le _
    have length := Nat.le_trans (documented.unpadded_le _) nodes
    have word := int64_of_lt (Nat.lt_of_le_of_lt length (by decide : 64 < 2 ^ 63))
    have size := uint64_of_lt (Nat.lt_of_le_of_lt length (by decide : 64 < 2 ^ 64))
    obtain ⟨k, small, exact, _⟩ := documented.paddedSize_valid _
      (Nat.le_trans length (by decide : 64 ≤ 127 * 2 ^ 56))
    have blocks : 2 ^ k ≤ 2 ^ 56 := Nat.pow_le_pow_right (by decide) small
    refine ⟨_, k, if_neg (by omega), ?_, small, ?_, fun low high => absurd ⟨low, high⟩ middle, ?_⟩
    · rw [Int.toNat_natCast]
      exact shifted
    · simp only [Int.toNat_natCast]
      rw [word, size, exact, documented.padded_blocks (2 ^ k) (by omega)]
    · intro high
      simp only [Int.toNat_natCast]
      have none : ext.unpadded 0 = 0 := Nat.le_zero.mp (documented.unpadded_le 0)
      have first : challengedLeaf / 2 ^ layerIdx = 0 := by
        apply Nat.div_eq_of_lt
        exact Nat.lt_of_lt_of_le bounded (Nat.pow_le_pow_right (by decide) (by omega))
      have start : int64 (((0 : Nat) : Int) * 2 ^ layerIdx) = 0 := by simp [int64]
      have bytes : uint64 ((0 : Int) * nodeSize) = 0 := by decide
      rw [uint64_leaves_zero high, shifted, first, start, bytes, none]
      exact ⟨by decide, by decide⟩

end Sections

section Layers

variable (ext : Externals)

def layerRoot (layer : List Node) : Node :=
  match hashLeaves ext layer.length layer with
  | .ok memtree => cell memtree (rootStart (layout 0 (levelCounts binary layer.length)))
  | .error _ => zeroNode

def layerDepth (layer : List Node) : Nat := (levelCounts binary layer.length).length - 1

def layerPath (layer : List Node) (index : Nat) : List Node :=
  match hashLeaves ext layer.length layer with
  | .ok memtree =>
    match siblingPath memtree (layout 0 (levelCounts binary layer.length)) index with
    | .ok path => path
    | .error _ => []
  | .error _ => []

/-- A layer that is small enough, whose row count can be read off its tree, and that has a row for
the snapshot node. -/
def LayerUsable (layer : List Node) (index : Nat) : Prop :=
  layer.length * nodeSize ≤ maxMemtreeSize ∧
    ((levelCounts binary layer.length).sum + 1) / 2 = layer.length ∧ index < layer.length

theorem snapshotProof_usable (usable : LayerUsable layer index) :
    snapshotProof ext layer index =
        .ok ⟨cell layer index, layerPath ext layer index, layerRoot ext layer⟩ ∧
      (layerPath ext layer index).length = layerDepth layer ∧
      climb ext.parent index (cell layer index) (layerPath ext layer index) =
        layerRoot ext layer := by
  obtain ⟨fits, count, inside⟩ := usable
  have some : layer ≠ [] := ne_nil_of_length_pos (by omega)
  obtain ⟨memtree, built, length, _⟩ := hashLeaves_spec ext some
  obtain ⟨path, found, proved, depth, climbed⟩ := memtreeProof_inside built some
    (by rw [length]; exact count) (Int.natCast_nonneg index) (by omega)
  rw [Int.toNat_natCast] at found proved climbed
  have root : layerRoot ext layer =
      cell memtree (rootStart (layout 0 (levelCounts binary layer.length))) := by
    rw [layerRoot, built]
  have siblings : layerPath ext layer index = path := by
    rw [layerPath, built]
    simp only [found]
  rw [root, siblings]
  refine ⟨?_, ?_, climbed⟩
  · rw [snapshotProof, buildSha254MemtreeFromSnapshot, if_neg (by omega),
      Nat.mul_div_cancel _ (by decide : 0 < nodeSize), built]
    exact wrap_eq_ok.mpr proved
  · rw [layerDepth]
    omega

theorem snapshotProof_unusable (some : layer ≠ []) (unusable : ¬ LayerUsable layer index) :
    ∃ message, snapshotProof ext layer index = fail message := by
  unfold snapshotProof buildSha254MemtreeFromSnapshot
  by_cases fits : layer.length * nodeSize ≤ maxMemtreeSize
  · obtain ⟨memtree, built, length, _⟩ := hashLeaves_spec ext some
    have outside : ¬ ((memtree.length + 1) / 2 = layer.length ∧ 0 ≤ (index : Int) ∧
        (index : Int) < layer.length) := by
      rw [length]
      intro inside
      exact unusable ⟨fits, inside.1, by omega⟩
    obtain ⟨message, failed⟩ := memtreeProof_outside built some outside
    rw [if_neg (by omega), Nat.mul_div_cancel _ (by decide : 0 < nodeSize), built, wrap_ok, ok_bind,
      failed]
    exact ⟨_, rfl⟩
  · rw [if_pos (by omega)]
    exact ⟨_, rfl⟩

theorem snapshotProof_empty (index : Int) :
    snapshotProof ext [] index = panics "index out of range" := by
  simp [snapshotProof, buildSha254MemtreeFromSnapshot, hashLeaves, computeTotalNodes, panics, wrap]

end Layers

variable {Cid : Type} (ext : Externals) (reader : PieceReader Cid) (cache : ProofCache Cid)
  (pieceCidV2 : Cid) (challengedLeaf : Nat) {sub : RawMerkleProof}

/-- The challenge gets as far as the rows of the layer: the section proof was made from the data,
and its root is the node stored for it. -/
structure Consulted (layerIdx : Nat) (sub : RawMerkleProof) (layer : List Node) : Prop where
  index : cache.getLayerIndex pieceCidV2 = .ok (some (layerIdx : Int))
  node : cache.getNode pieceCidV2 layerIdx (challengedLeaf / 2 ^ layerIdx : Nat) =
    .ok (some sub.root)
  proved : ∃ params file, computeCacheProofParams ext layerIdx challengedLeaf = .ok params ∧
    reader pieceCidV2 = .ok file ∧ sectionProof ext file params = .ok sub
  rows : cache.getLayer pieceCidV2 layerIdx = .ok layer

/-- The rows lead from the challenged section to the root: it is the root of their tree, at the
right height, and what the branch of the leaf hashes up to along them. -/
structure RowsLead (sub : RawMerkleProof) (layer : List Node) (index : Nat) (root : Node)
    (height : Nat) : Prop where
  root_eq : layerRoot ext layer = root
  levels : sub.proof.length + layerDepth layer = height
  climbs : climb ext.parent (challengedLeaf / 2 ^ sub.proof.length)
    (climb ext.parent challengedLeaf sub.leaf sub.proof) (layerPath ext layer index) = root

/-- A cache that cannot spoil a proof: no layer index is negative, and where its rows are
consulted there are some, and they cannot be used or lead to the root. -/
def Harmless (root : Node) (height : Nat) : Prop :=
  ∀ layerIdx, cache.getLayerIndex pieceCidV2 = .ok (some layerIdx) → 0 ≤ layerIdx ∧
    ∀ sub layer, Consulted ext reader cache pieceCidV2 challengedLeaf layerIdx.toNat sub layer →
      layer ≠ [] ∧ (LayerUsable layer (challengedLeaf / 2 ^ layerIdx.toNat) →
        RowsLead ext challengedLeaf sub layer (challengedLeaf / 2 ^ layerIdx.toNat) root height)

variable {ext reader cache pieceCidV2 challengedLeaf}

theorem generateCachedProof_consulted
    (consulted : Consulted ext reader cache pieceCidV2 challengedLeaf layerIdx sub layer)
    (documented : ext.Documented) (bounded : challengedLeaf < 2 ^ 58) :
    generateCachedProof ext reader cache pieceCidV2 challengedLeaf =
      (snapshotProof ext layer (challengedLeaf / 2 ^ layerIdx : Nat) >>= fun upperProof =>
        .ok (some (combineSplitProofs sub upperProof))) := by
  obtain ⟨params, file, computed, opened, proved⟩ := consulted.proved
  obtain ⟨others, _, again, index, _⟩ := computeCacheProofParams_cases documented bounded
  have same : others = params := Except.ok.inj (again.symm.trans computed)
  subst same
  unfold generateCachedProof
  rw [consulted.index, ofCall_ok, wrap_ok, ok_bind]
  simp only
  rw [computed, ok_bind, index, consulted.node, ofCall_ok, wrap_ok, ok_bind]
  simp only
  rw [opened, ofCall_ok, wrap_ok, ok_bind, proved, ok_bind, if_neg (not_not_intro rfl),
    consulted.rows, ofCall_ok, wrap_ok, ok_bind]

theorem generateCachedProof_unconsulted {good : RawMerkleProof → Prop}
    (documented : ext.Documented) (bounded : challengedLeaf < 2 ^ 58)
    (positive : ∀ layerIdx, cache.getLayerIndex pieceCidV2 = .ok (some layerIdx) → 0 ≤ layerIdx)
    (unconsulted : ∀ layerIdx sub layer,
      ¬ Consulted ext reader cache pieceCidV2 challengedLeaf layerIdx sub layer) :
    Safe good (generateCachedProof ext reader cache pieceCidV2 challengedLeaf) := by
  unfold generateCachedProof
  cases found : cache.getLayerIndex pieceCidV2 with
  | error message => exact trivial
  | ok answer =>
    cases answer with
    | none => exact trivial
    | some layerIdx =>
      obtain ⟨layer, rfl⟩ := Int.eq_ofNat_of_zero_le (positive layerIdx found)
      obtain ⟨params, k, computed, index, small, size, _⟩ :=
        computeCacheProofParams_cases documented bounded
      rw [ofCall_ok, wrap_ok, ok_bind]
      simp only
      rw [computed, ok_bind, index]
      cases stored : cache.getNode pieceCidV2 layer (challengedLeaf / 2 ^ layer : Nat) with
      | error message => exact trivial
      | ok answer =>
        cases answer with
        | none => exact trivial
        | some nodeHash =>
          rw [ofCall_ok, wrap_ok, ok_bind]
          simp only
          cases opened : reader pieceCidV2 with
          | error message => exact trivial
          | ok file =>
            rw [ofCall_ok, wrap_ok, ok_bind]
            rcases sectionProof_cases documented small size with
              ⟨message, failed⟩ | ⟨_, sub, proved, _⟩
            · rw [failed]
              exact trivial
            · rw [proved, ok_bind]
              by_cases same : sub.root = nodeHash
              · rw [if_neg (not_not_intro same)]
                cases rows : cache.getLayer pieceCidV2 layer with
                | error message => exact trivial
                | ok nodes =>
                  exact absurd ⟨found, by rw [stored, same],
                    ⟨params, file, computed, opened, proved⟩, rows⟩
                    (unconsulted layer sub nodes)
              · rw [if_pos same]
                exact trivial

/-- A proof over the layer is valid exactly if the rows lead to the root. -/
theorem validProof_iff_rowsLead {root : Node} {height : Nat} (usable : LayerUsable layer index) :
    ValidProof ext.sha256 root height challengedLeaf (combineSplitProofs sub
        ⟨cell layer index, layerPath ext layer index, layerRoot ext layer⟩) ↔
      RowsLead ext challengedLeaf sub layer index root height := by
  obtain ⟨_, depth, _⟩ := snapshotProof_usable ext usable
  constructor
  · intro valid
    have accepted := (verifyProof_iff ..).mp valid.accepted
    have length := valid.depth
    simp only [combineSplitProofs, climb_append] at accepted
    simp only [combineSplitProofs, length_append, depth] at length
    exact ⟨valid.root_eq, length, accepted⟩
  · intro lead
    refine ⟨lead.root_eq, ?_, (verifyProof_iff ..).mpr ?_⟩
    · simp only [combineSplitProofs, length_append, depth]
      exact lead.levels
    · simp only [combineSplitProofs, climb_append]
      exact lead.climbs

/-- The outcome with a cache of any content is harmless exactly if the cache is. -/
theorem generateCachedProof_safe_iff (documented : ext.Documented)
    (bounded : challengedLeaf < 2 ^ 58) (root : Node) (height : Nat) :
    Safe (ValidProof ext.sha256 root height challengedLeaf)
        (generateCachedProof ext reader cache pieceCidV2 challengedLeaf) ↔
      Harmless ext reader cache pieceCidV2 challengedLeaf root height := by
  constructor
  · intro safe layerIdx found
    have positive : 0 ≤ layerIdx := by
      by_contra negative
      rw [generateCachedProof, found] at safe
      simp only [ofCall_ok, wrap_ok, ok_bind, computeCacheProofParams] at safe
      rw [if_pos (by omega)] at safe
      exact safe
    refine ⟨positive, ?_⟩
    intro sub layer consulted
    rw [generateCachedProof_consulted consulted documented bounded] at safe
    have some : layer ≠ [] := by
      rintro rfl
      rw [snapshotProof_empty] at safe
      exact safe
    refine ⟨some, ?_⟩
    intro usable
    rw [(snapshotProof_usable ext usable).1] at safe
    exact (validProof_iff_rowsLead usable).mp safe
  · intro harmless
    by_cases consults : ∃ layerIdx sub layer,
        Consulted ext reader cache pieceCidV2 challengedLeaf layerIdx sub layer
    · obtain ⟨layerIdx, sub, layer, consulted⟩ := consults
      obtain ⟨some, leads⟩ := (harmless layerIdx consulted.index).2 sub layer consulted
      rw [generateCachedProof_consulted consulted documented bounded]
      by_cases usable : LayerUsable layer (challengedLeaf / 2 ^ layerIdx)
      · rw [(snapshotProof_usable ext usable).1]
        exact (validProof_iff_rowsLead usable).mpr (leads usable)
      · obtain ⟨message, failed⟩ := snapshotProof_unusable ext some usable
        rw [failed]
        exact trivial
    · exact generateCachedProof_unconsulted documented bounded
        (fun layerIdx found => (harmless layerIdx found).1)
        (fun layerIdx sub layer consulted => consults ⟨layerIdx, sub, layer, consulted⟩)

end Curio.Proof
