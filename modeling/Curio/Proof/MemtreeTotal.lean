import Curio.Proof.TreeDRuns

/-! Memtrees from bytes: proofs from them are complete and binding, and which inputs the builders
and `MemtreeProof` come back from. -/

namespace Curio.Proof

open GoRuntime BinaryMerkle List

/-- `BuildSha254MemtreeFromSnapshot` on the bytes it gets. A buffer of the pool is as long as asked
for but can be sliced up to its capacity. -/
def snapshotMemtree (ext : Externals) (capacity : Nat → Nat) (data : Bytes) :
    Go (List Node) :=
  let size := data.length
  if maxMemtreeSize < size then fail s!"piece too large for memtree: {size}"
  else
    let (totalNodes, levelSizes) := computeTotalNodes (size / nodeSize) binary
    let stale := nodeBytes ((range totalNodes).map ext.pool)
    if capacity (totalNodes * nodeSize) < size then panics "slice bounds out of range"
    else if levelSizes.isEmpty then panics "index out of range"
    else hashLevels ext (layout 0 levelSizes) ((toNodes (data ++ stale.drop size)).take totalNodes)

/-- What the builders return for so many leaves, with the nodes that they have read. -/
inductive Built (ext : Externals) (capacity : Nat → Nat) : Nat → List Node → List Node → Prop
  | sealed {rawIn : Stream} {size : Nat} {unpadBuf : Bytes} {memtree : List Node}
    (read : readFull rawIn size = .ok unpadBuf)
    (returned : buildSha254Memtree ext rawIn size = .ok memtree) :
    Built ext capacity (ext.padded size / nodeSize) (ext.fr32Pad unpadBuf) memtree
  | snapshot {data : Bytes} {memtree : List Node}
    (returned : snapshotMemtree ext capacity data = .ok memtree) :
    Built ext capacity (data.length / nodeSize) (toNodes data) memtree

/-- The levels of a tree over the leaves; those that are not given are stale. -/
structure IsMemtree (ext : Externals) (count : Nat) (leaves memtree : List Node) : Prop where
  total : memtree.length = (levelCounts binary count).sum
  kept : ∀ j < count, j < leaves.length → cell memtree j = cell leaves j
  hashed : Hashed ext memtree (layout 0 (levelCounts binary count))

variable {ext : Externals} {capacity : Nat → Nat} {count : Nat} {leaves : List Node}

theorem hashLevels_built {buffer : List Node} (some : 0 < count)
    (length : buffer.length = (levelCounts binary count).sum)
    (same : ∀ j < count, j < leaves.length → cell buffer j = cell leaves j) :
    ∃ memtree, hashLevels ext (layout 0 (levelCounts binary count)) buffer = .ok memtree ∧
      IsMemtree ext count leaves memtree := by
  obtain ⟨memtree, built, size, kept, hashed⟩ := hashLevels_spec ext some (by rw [length, zero_add])
  refine ⟨memtree, built, size.trans length, fun j below inside => ?_, hashed⟩
  rw [kept j (by omega), same j below inside]

theorem levelCounts_present (some : 0 < count) : (levelCounts binary count).isEmpty = false := by
  obtain ⟨rest, counts⟩ := levelCounts_cons some
  rw [counts]
  rfl

theorem snapshot_buffer_length {data : Bytes} {total : Nat} :
    ((toNodes (data ++ (nodeBytes ((range total).map ext.pool)).drop data.length)).take
      total).length = total := by
  rw [length_take, toNodes_length, length_append, length_drop, nodeBytes_length,
    length_map, length_range]
  simp only [nodeSize]
  omega

theorem snapshot_buffer_cell {data stale : Bytes} {j : Nat}
    (below : j < data.length / nodeSize) :
    cell ((toNodes (data ++ stale)).take (levelCounts binary (data.length / nodeSize)).sum) j =
      cell (toNodes data) j := by
  have wide := levelCounts_le_sum (Nat.zero_lt_of_lt below)
  have more : data.length / nodeSize ≤ (data ++ stale).length / nodeSize :=
    Nat.div_le_div_right (by simp)
  have inside : nodeSize * (j + 1) ≤ data.length :=
    (Nat.mul_le_mul_left _ below).trans (Nat.mul_div_le _ _)
  rw [cell, getD_eq_getElem?_getD, getElem?_take_of_lt (by omega), ← getD_eq_getElem?_getD, ← cell,
    cell_toNodes (by omega), cell_toNodes below]
  refine congrArg Vector.ofFn (funext fun byte => ?_)
  rw [getD_append _ _ _ _ (by have := byte.isLt; simp only [nodeSize] at *; omega)]

/-- A snapshot is too large, too short or too long for the sliced buffer, or gives a tree. -/
theorem snapshotMemtree_cases (ext : Externals) (capacity : Nat → Nat) (data : Bytes) :
    (maxMemtreeSize < data.length ∧ ∃ message, snapshotMemtree ext capacity data = fail message) ∨
    ¬maxMemtreeSize < data.length ∧
    ((data.length / nodeSize = 0 ∨
        capacity ((levelCounts binary (data.length / nodeSize)).sum * nodeSize) < data.length) ∧
      (∃ message, snapshotMemtree ext capacity data = panics message) ∨
    0 < data.length / nodeSize ∧
      data.length ≤ capacity ((levelCounts binary (data.length / nodeSize)).sum * nodeSize) ∧
      ∃ memtree, snapshotMemtree ext capacity data = .ok memtree ∧
        IsMemtree ext (data.length / nodeSize) (toNodes data) memtree) := by
  unfold snapshotMemtree computeTotalNodes
  dsimp only
  split
  case isTrue large => exact .inl ⟨large, _, rfl⟩
  case isFalse small =>
    refine .inr ⟨small, ?_⟩
    split
    case isTrue beyond => exact .inl ⟨.inr beyond, _, rfl⟩
    case isFalse fits =>
      rcases eq_zero_or_pos (data.length / nodeSize) with none | some
      · rw [none, levelCounts_zero]
        exact .inl ⟨.inl rfl, _, rfl⟩
      · rw [levelCounts_present some]
        exact .inr ⟨some, Nat.le_of_not_lt fits, hashLevels_built some snapshot_buffer_length
          fun j below _ => snapshot_buffer_cell below⟩

theorem Built.isMemtree (padFits : ∀ bytes, (ext.fr32Pad bytes).length ≤
      ext.padded bytes.length / nodeSize) {memtree : List Node}
    (built : Built ext capacity count leaves memtree) (some : 0 < count) :
    IsMemtree ext count leaves memtree := by
  cases built with
  | @sealed rawIn size unpadBuf _ read returned =>
    rw [buildSha254Memtree] at returned
    split at returned
    case isTrue => cases returned
    have length : unpadBuf.length = size := by
      rcases readFull_cases rawIn size with ⟨message, failed⟩ | ⟨buffer, other, length⟩
      · cases failed.symm.trans read
      · cases other.symm.trans read
        exact length
    have short := padFits unpadBuf
    rw [length] at short
    have wide := levelCounts_le_sum some
    rw [read, wrap_ok, ok_bind] at returned
    simp only [hashLeaves, computeTotalNodes, levelCounts_present some] at returned
    have room : (ext.fr32Pad unpadBuf ++ (range ((levelCounts binary
        (ext.padded size / nodeSize)).sum - (ext.fr32Pad unpadBuf).length)).map ext.pool).length =
          (levelCounts binary (ext.padded size / nodeSize)).sum := by
      rw [length_append, length_map, length_range]
      omega
    obtain ⟨other, again, tree⟩ := hashLevels_built some room
      fun j _ (inside : j < (ext.fr32Pad unpadBuf).length) => cell_append_left _ inside
    exact Except.ok.inj (again.symm.trans returned) ▸ tree
  | @snapshot data _ returned =>
    rcases snapshotMemtree_cases ext capacity data with
      ⟨-, message, failed⟩ | ⟨-, ⟨-, message, failed⟩ | ⟨-, -, other, again, tree⟩⟩
    · cases failed.symm.trans returned
    · cases failed.symm.trans returned
    · exact Except.ok.inj (again.symm.trans returned) ▸ tree

/-- Every leaf of a memtree over a power of two has a proof with one sibling for each level that is
accepted, from the node of the data to the root over them, and two accepted proofs of one length
agree or show a collision. -/
theorem memtree_proofs_bind (ext : Externals) (capacity : Nat → Nat)
    (padFits : ∀ bytes, (ext.fr32Pad bytes).length ≤ ext.padded bytes.length / nodeSize) :
    (∀ k leaves memtree, Built ext capacity (2 ^ k) leaves memtree → ∀ i < 2 ^ k, ∃ proof,
      memtreeProof memtree (i : Nat) = .ok proof ∧ proof.proof.length = k ∧
      verifyProof ext.sha256 proof.leaf proof.proof proof.root i = true ∧
      (leaves.length = 2 ^ k → proof.leaf = cell leaves i ∧
        proof.root = node ext.parent (cell leaves) k 0)) ∧
    ∀ root position leaf path leaf' path', path.length = path'.length →
      verifyProof ext.sha256 leaf path root position = true →
      verifyProof ext.sha256 leaf' path' root position = true →
      (leaf = leaf' ∧ path = path') ∨ ∃ pair pair', pair ≠ pair' ∧
        computeBinShaParent ext.sha256 pair.1 pair.2 =
          computeBinShaParent ext.sha256 pair'.1 pair'.2 ∧
        collision (computeBinShaParent ext.sha256) position leaf path leaf' path' =
          some (pair, pair') := by
  constructor
  · intro k leaves memtree built i inside
    have tree := built.isMemtree padFits (Nat.two_pow_pos k)
    refine ⟨_, memtreeProof_hashed tree.total (fun _ _ => rfl) tree.hashed inside,
      siblings_length .., ?_, fun whole => ⟨tree.kept i inside (whole ▸ inside), ?_⟩⟩
    · rw [verifyProof_iff]
      have climbed := climb_node ext.parent (cell memtree) i k
      rwa [Nat.div_eq_of_lt inside] at climbed
    · refine node_congr _ _ _ _ _ fun j _ below => tree.kept j ?_ ?_
      all_goals omega
  · intro root position leaf path leaf' path' length accepted accepted'
    rw [verifyProof_iff] at accepted accepted'
    exact climb_binding _ length (accepted.trans accepted'.symm)

theorem memtree_proofs_bind_two :
    ∃ memtree, Built referenceExternals id 2 (toNodes (replicate 64 7)) memtree ∧
    ∃ proof, memtreeProof memtree 1 = .ok proof ∧ proof.proof.length = 1 ∧
      verifyProof referenceExternals.sha256 proof.leaf proof.proof proof.root 1 = true ∧
      proof.leaf = Vector.replicate 32 7 := by
  have padFits : ∀ bytes, (referenceExternals.fr32Pad bytes).length ≤
      referenceExternals.padded bytes.length / nodeSize := by
    intro bytes
    simp only [referenceExternals, padBlocks_length, nodeSize]
    omega
  rcases snapshotMemtree_cases referenceExternals id (replicate 64 7) with
    ⟨large, -⟩ | ⟨-, ⟨short, -⟩ | ⟨-, -, memtree, returned, -⟩⟩
  · exact absurd large (by decide)
  · simp [nodeSize, levelCounts, binary, parentCount] at short
  have built : Built referenceExternals id (2 ^ 1) _ memtree := .snapshot returned
  obtain ⟨proof, proved, length, accepted, whole⟩ :=
    (memtree_proofs_bind referenceExternals id padFits).1 1 _ memtree built 1 (by decide)
  exact ⟨memtree, built, proof, proved, length, accepted, (whole rfl).1.trans (by decide)⟩

/-- `MemtreeProof` reads whole nodes only, and comes back as soon as there is one. -/
theorem memtreeProof_returns (memtree : List Node) (leafIndex : Int) :
    Returns (memtreeProof memtree leafIndex) ↔ memtree ≠ [] := by
  unfold memtreeProof
  by_cases none : memtree = []
  · subst none
    simp [Returns, fail]
  have positive := length_pos_of_ne_nil none
  refine iff_of_true ?_ none
  rw [if_neg (by omega)]
  by_cases sums : (levelCounts binary ((memtree.length + 1) / 2)).sum = memtree.length
  · rw [if_neg (not_not_intro sums)]
    by_cases outside : leafIndex < 0 ∨ (((memtree.length + 1) / 2 : Nat) : Int) ≤ leafIndex
    · rw [if_pos outside]
      exact .inr ⟨_, rfl⟩
    · rw [if_neg outside]
      obtain ⟨path, found, -⟩ := siblingPath_climb referenceExternals
        (by omega : leafIndex.toNat < (memtree.length + 1) / 2)
        (by omega : 0 + (levelCounts binary ((memtree.length + 1) / 2)).sum ≤ memtree.length)
      rw [readAt_cell (by omega), found,
        readAt_cell (rootStart_lt (by omega) (by omega))]
      exact .inl ⟨_, rfl⟩
  · rw [if_pos sums]
    exact .inr ⟨_, rfl⟩

/-- Only a single node leaves the slice of the buffer shorter than the data may be. -/
theorem sliced_iff (covers : ∀ length, length ≤ capacity length) {length : Nat}
    (some : 0 < length / nodeSize) :
    length ≤ capacity ((levelCounts binary (length / nodeSize)).sum * nodeSize) ↔
      (length < 2 * nodeSize → length ≤ capacity nodeSize) := by
  simp only [nodeSize] at *
  by_cases single : length < 2 * 32
  · have one : length / 32 = 1 := by omega
    rw [one, levelCounts_one]
    exact ⟨fun fits _ => fits, fun fits => fits single⟩
  · have several : 1 < length / 32 := by omega
    have above := levelCounts_le_sum (parentCount_pos binary (lt_trans one_pos several))
    have parents := parentCount_binary (length / 32)
    have wide := covers ((levelCounts binary (length / 32)).sum * 32)
    rw [levelCounts_several binary several, sum_cons] at wide ⊢
    exact iff_of_true (by omega) (fun within => absurd within single)

/-- The pipeline and `MemtreeProof` alone come back exactly from these inputs. -/
theorem memtree_total_iff (ext : Externals) (capacity : Nat → Nat)
    (covers : ∀ length, length ≤ capacity length) (data : Bytes) (leafIndex : Int) :
    (Returns (snapshotMemtree ext capacity data >>= (memtreeProof · leafIndex)) ↔
      maxMemtreeSize < data.length ∨ nodeSize ≤ data.length ∧
        (data.length < 2 * nodeSize → data.length ≤ capacity nodeSize)) ∧
    (Returns (memtreeProof (toNodes data) leafIndex) ↔ nodeSize ≤ data.length) := by
  constructor
  · rcases snapshotMemtree_cases ext capacity data with
      ⟨large, message, failed⟩ | ⟨small, ⟨short, message, failed⟩ | ⟨some, fits, tree⟩⟩
    · rw [failed]
      exact iff_of_true (.inr ⟨message, rfl⟩) (.inl large)
    · rw [failed]
      refine iff_of_false (not_returns_panics message) ?_
      rintro (large | ⟨node, sliced⟩)
      · exact small large
      · have some : 0 < data.length / nodeSize := Nat.div_pos node (by decide)
        rcases short with none | beyond
        · exact absurd none some.ne'
        · exact absurd ((sliced_iff covers some).mpr sliced) (Nat.not_le_of_lt beyond)
    · obtain ⟨memtree, built, isTree⟩ := tree
      have length := isTree.total
      have wide := levelCounts_le_sum some
      rw [built, ok_bind, memtreeProof_returns, ← length_pos_iff]
      exact iff_of_true (by omega)
        (.inr ⟨(Nat.div_pos_iff.mp some).2, (sliced_iff covers some).mp fits⟩)
  · rw [memtreeProof_returns, ← length_pos_iff, toNodes_length]
    exact Nat.div_pos_iff.trans (by simp [nodeSize])

theorem memtree_total_iff_three : let data := replicate 96 0
    Returns (snapshotMemtree referenceExternals id data >>= (memtreeProof · 2)) ∧
      Returns (memtreeProof (toNodes data) 2) := by
  have both := memtree_total_iff referenceExternals id (fun _ => le_rfl) (replicate 96 0) 2
  exact ⟨both.1.mpr (by decide), both.2.mpr (by decide)⟩

/-- From nothing the builder panics and the prover never comes back. -/
theorem empty_memtree_lost :
    snapshotMemtree referenceExternals id [] = panics "index out of range" ∧
      memtreeProof (toNodes []) 0 = .error .hang :=
  ⟨by simp [snapshotMemtree, computeTotalNodes], rfl⟩

end Curio.Proof
