import Curio.Proof.Memtree

/-! Proofs over a cached middle layer: `lib/proof/cached_proof.go`. -/

namespace Curio.Proof

open GoRuntime BinaryMerkle List

/-- An open piece: the raw bytes a reader delivers, whether it then fails, and the size it
reports. No piece is larger than `2^63` padded bytes. -/
structure PieceFile where
  bytes : Bytes
  failure : Option String := none
  reportedSize : Nat
  fits : bytes.length ≤ 127 * 2 ^ 56
  reportedFits : reportedSize ≤ 127 * 2 ^ 56

abbrev PieceReader (Cid : Type) := Cid → Call PieceFile

structure ProofCache (Cid : Type) where
  getLayerIndex : Cid → Call (Option Int)
  getNode : Cid → Int → Int → Call (Option Node)
  getLayer : Cid → Int → Call (List Node)

structure CacheProofParams where
  snapshotNodeIndex : Int
  startLeaf : Int
  leavesPerNode : Int
  subTreeChallenge : Int
  sectionOffset : Int
  sectionLength : Int
  subrootSize : Nat

/-- A negative shift count panics. -/
def computeCacheProofParams (ext : Externals) (layerIdx challengedLeaf : Int) :
    Go CacheProofParams :=
  if layerIdx < 0 then panics "negative shift amount"
  else
    let leavesPerNode := int64 (2 ^ layerIdx.toNat)
    let snapshotNodeIndex := challengedLeaf >>> layerIdx.toNat
    let startLeaf := int64 (snapshotNodeIndex * 2 ^ layerIdx.toNat)
    let offset := int64 (ext.unpadded (uint64 (startLeaf * nodeSize)))
    let length := int64 (ext.unpadded (uint64 (leavesPerNode * nodeSize)))
    .ok {
      snapshotNodeIndex := snapshotNodeIndex
      startLeaf := startLeaf
      leavesPerNode := leavesPerNode
      subTreeChallenge := challengedLeaf - startLeaf
      sectionOffset := offset
      sectionLength := length
      subrootSize := ext.padded (ext.paddedSize (uint64 length)) }

def combineSplitProofs (subProof upperProof : RawMerkleProof) : RawMerkleProof :=
  ⟨subProof.leaf, subProof.proof ++ upperProof.proof, upperProof.root⟩

def sectionReader (file : PieceFile) (offset length : Int) : Stream :=
  if offset < 0 then ⟨[], some "negative offset"⟩
  else
    let available := file.bytes.drop offset.toNat
    if length.toNat ≤ available.length then ⟨available.take length.toNat, none⟩
    else ⟨available, file.failure⟩

def nullReader (size : Int) : Stream := ⟨replicate size.toNat 0, none⟩

def sectionData (ext : Externals) (file : PieceFile) (params : CacheProofParams) : Stream :=
  let dataReader := sectionReader file params.sectionOffset params.sectionLength
  let fileRemaining := int64 file.reportedSize - params.sectionOffset
  if fileRemaining < params.sectionLength then
    dataReader.append (nullReader (int64 (ext.unpadded params.subrootSize) - fileRemaining))
  else dataReader

def sectionProof (ext : Externals) (file : PieceFile) (params : CacheProofParams) :
    Go RawMerkleProof := do
  let memtree ← wrap "failed to build section memtree"
    (buildSha254Memtree ext (sectionData ext file params) (ext.unpadded params.subrootSize))
  wrap "failed to generate section proof" (memtreeProof memtree params.subTreeChallenge)

def snapshotProof (ext : Externals) (layer : List Node) (snapshotNodeIndex : Int) :
    Go RawMerkleProof := do
  let mtree ← wrap "failed to build memtree from snapshot"
    (buildSha254MemtreeFromSnapshot ext layer)
  wrap "failed to generate snapshot-to-root proof" (memtreeProof mtree snapshotNodeIndex)

/-- No proof and no error where the cache has nothing for the leaf. -/
def generateCachedProof {Cid : Type} (ext : Externals) (reader : PieceReader Cid)
    (cache : ProofCache Cid) (pieceCidV2 : Cid) (challengedLeaf : Int) :
    Go (Option RawMerkleProof) := do
  match ← wrap "failed to check PDP layer" (ofCall (cache.getLayerIndex pieceCidV2)) with
  | none => .ok none
  | some layerIdx =>
    let params ← computeCacheProofParams ext layerIdx challengedLeaf
    match ← wrap "failed to get cached node"
        (ofCall (cache.getNode pieceCidV2 layerIdx params.snapshotNodeIndex)) with
    | none => .ok none
    | some nodeHash =>
      let file ← wrap "failed to get reader" (ofCall (reader pieceCidV2))
      let subTreeProof ← sectionProof ext file params
      if subTreeProof.root ≠ nodeHash then
        fail ("section root mismatch with cached node: " ++
          s!"{hex subTreeProof.root} != {hex nodeHash}")
      else
        let layerBytes ← wrap "failed to get cached layer nodes"
          (ofCall (cache.getLayer pieceCidV2 layerIdx))
        let upperProof ← snapshotProof ext layerBytes params.snapshotNodeIndex
        .ok (some (combineSplitProofs subTreeProof upperProof))

/-- The documented behaviour of the piece size functions and of `fr32.Pad`, which maps each block
of 127 bytes to four nodes on its own. -/
structure Externals.Documented (ext : Externals) : Prop where
  unpadded_le : ∀ size, ext.unpadded size ≤ size
  unpadded_blocks : ∀ blocks, 128 * blocks < 2 ^ 64 → ext.unpadded (128 * blocks) = 127 * blocks
  padded_blocks : ∀ blocks, 128 * blocks < 2 ^ 64 → ext.padded (127 * blocks) = 128 * blocks
  paddedSize_exact : ∀ k, k ≤ 56 → ext.paddedSize (127 * 2 ^ k) = 127 * 2 ^ k
  paddedSize_valid : ∀ size, size ≤ 127 * 2 ^ 56 →
    ∃ k, k ≤ 56 ∧ ext.paddedSize size = 127 * 2 ^ k ∧ size ≤ 127 * 2 ^ k
  pad_append : ∀ front back, 127 ∣ front.length → 127 ∣ back.length →
    ext.fr32Pad (front ++ back) = ext.fr32Pad front ++ ext.fr32Pad back
  pad_length : ∀ blocks data, data.length = 127 * blocks → (ext.fr32Pad data).length = 4 * blocks

variable {size m i k index rest level : Nat} {file : PieceFile} {raw : Bytes}
  {leaves : List Node} {data : Bytes} {first second layerIdx : Nat}

section Sections

variable {ext : Externals} (documented : ext.Documented)
include documented

theorem Externals.Documented.paddedSize_holds (bound : size ≤ 127 * 2 ^ 56)
    (padded : ext.padded (ext.paddedSize size) = 2 ^ m) :
    7 ≤ m ∧ size ≤ 127 * 2 ^ (m - 7) := by
  obtain ⟨k, small, exact, holds⟩ := documented.paddedSize_valid size bound
  have blocks : 2 ^ k ≤ 2 ^ 56 := Nat.pow_le_pow_right (by decide) small
  rw [exact, documented.padded_blocks (2 ^ k) (by omega), show 128 = 2 ^ 7 from rfl, ← Nat.pow_add]
    at padded
  have exponent : 7 + k = m := Nat.pow_right_injective (Nat.le_refl 2) padded
  refine ⟨by omega, ?_⟩
  rw [← exponent, Nat.add_sub_cancel_left]
  exact holds

theorem cell_pad_section {before blocks total : Nat} (length : data.length = 127 * total)
    (fits : before + blocks ≤ total) (inside : i < 4 * blocks) :
    cell (ext.fr32Pad ((data.drop (127 * before)).take (127 * blocks))) i =
      cell (ext.fr32Pad data) (4 * before + i) := by
  have frontLength : (data.take (127 * before)).length = 127 * before := by
    rw [length_take]
    omega
  have middleLength : ((data.drop (127 * before)).take (127 * blocks)).length = 127 * blocks := by
    rw [length_take, length_drop]
    omega
  have backLength : ((data.drop (127 * before)).drop (127 * blocks)).length =
      127 * (total - before - blocks) := by
    rw [length_drop, length_drop]
    omega
  have tail : (data.drop (127 * before)).length = 127 * (total - before) := by
    rw [length_drop]
    omega
  have split : ext.fr32Pad data = ext.fr32Pad (data.take (127 * before)) ++
      (ext.fr32Pad ((data.drop (127 * before)).take (127 * blocks)) ++
        ext.fr32Pad ((data.drop (127 * before)).drop (127 * blocks))) := by
    rw [← documented.pad_append _ _ ⟨_, middleLength⟩ ⟨_, backLength⟩, take_append_drop,
      ← documented.pad_append _ _ ⟨_, frontLength⟩ ⟨_, tail⟩, take_append_drop]
  have front := documented.pad_length before _ frontLength
  have middle := documented.pad_length blocks _ middleLength
  rw [split, ← front, cell_append_right, cell_append_left _ (by omega)]

/-- The parameters of leaf `rest` of section `index` of a layer at `k + 2`. -/
def sectionParams (k index rest : Nat) : CacheProofParams where
  snapshotNodeIndex := index
  startLeaf := (index * 2 ^ (k + 2) : Nat)
  leavesPerNode := (2 ^ (k + 2) : Nat)
  subTreeChallenge := rest
  sectionOffset := (127 * (2 ^ k * index) : Nat)
  sectionLength := (127 * 2 ^ k : Nat)
  subrootSize := 128 * 2 ^ k

theorem computeCacheProofParams_eq (small : k ≤ 56) (inner : rest < 2 ^ (k + 2))
    (inside : index * 2 ^ (k + 2) + rest < 2 ^ 58) :
    computeCacheProofParams ext (k + 2 : Nat) (index * 2 ^ (k + 2) + rest : Nat) =
      .ok (sectionParams k index rest) := by
  have width : 2 ^ (k + 2) = 4 * 2 ^ k := by
    ring
  have blocks : 2 ^ k ≤ 2 ^ 56 := Nat.pow_le_pow_right (by decide) small
  have leaves : index * 2 ^ (k + 2) = 4 * (2 ^ k * index) := by
    ring
  have offset := documented.unpadded_blocks (2 ^ k * index) (by omega)
  have length := documented.unpadded_blocks (2 ^ k) (by omega)
  have shifted : ((index * 2 ^ (k + 2) + rest : Nat) : Int) >>> (k + 2) = (index : Nat) := by
    have quotient : (index * 2 ^ (k + 2) + rest) / 2 ^ (k + 2) = index := by
      rw [Nat.mul_comm, Nat.mul_add_div (Nat.two_pow_pos _), Nat.div_eq_of_lt inner, Nat.add_zero]
    rw [Int.shiftRight_eq_div_pow]
    exact congrArg Nat.cast quotient
  have perNode : int64 (2 ^ (k + 2)) = (2 ^ (k + 2) : Nat) := by
    have word := int64_of_lt (by omega : 2 ^ (k + 2) < 2 ^ 63)
    simpa using word
  have startLeaf : int64 ((index : Int) * 2 ^ (k + 2)) = (index * 2 ^ (k + 2) : Nat) := by
    have word := int64_of_lt (by omega : index * 2 ^ (k + 2) < 2 ^ 63)
    simpa using word
  have startBytes : ((index * 2 ^ (k + 2) : Nat) : Int) * (nodeSize : Int) =
      (128 * (2 ^ k * index) : Nat) := by
    simp only [nodeSize]
    push_cast
    ring
  have lengthBytes : ((2 ^ (k + 2) : Nat) : Int) * (nodeSize : Int) = (128 * 2 ^ k : Nat) := by
    simp only [nodeSize]
    push_cast
    ring
  have challenge : ((index * 2 ^ (k + 2) + rest : Nat) : Int) - (index * 2 ^ (k + 2) : Nat) =
      rest := by
    push_cast
    ring
  unfold computeCacheProofParams
  rw [if_neg (by omega), Int.toNat_natCast]
  dsimp only
  rw [shifted, perNode, startLeaf, startBytes, lengthBytes, challenge,
    uint64_of_lt (by omega : 128 * (2 ^ k * index) < 2 ^ 64),
    uint64_of_lt (by omega : 128 * 2 ^ k < 2 ^ 64), offset, length,
    int64_of_lt (by omega : 127 * (2 ^ k * index) < 2 ^ 63),
    int64_of_lt (by omega : 127 * 2 ^ k < 2 ^ 63),
    uint64_of_lt (by omega : 127 * 2 ^ k < 2 ^ 64),
    documented.paddedSize_exact k (by omega), documented.padded_blocks (2 ^ k) (by omega)]
  rfl

def zeroExtended (raw : Bytes) (size : Nat) : Bytes :=
  raw ++ replicate (size - raw.length) 0

omit documented in
theorem take_zeros {n : Nat} (enough : n ≤ data.length + first) (also : n ≤ data.length + second) :
    (data ++ replicate first 0).take n = (data ++ replicate second 0).take n := by
  grind [take_append]

omit documented in
/-- Reading a section gives the bytes of the zero-extended piece, wherever the file ends. -/
theorem sectionData_read {params : CacheProofParams} {offset length : Nat}
    (reported : file.reportedSize = file.bytes.length) (readable : file.failure = none)
    (start : params.sectionOffset = offset) (wide : params.sectionLength = length)
    (whole : int64 (ext.unpadded params.subrootSize) = length) (positive : 0 < length)
    (fits : offset + length ≤ size) :
    readFull (sectionData ext file params) length =
      .ok (((zeroExtended file.bytes size).drop offset).take length) := by
  have words : int64 file.reportedSize = file.bytes.length := by
    rw [reported]
    exact int64_of_lt (by have := file.fits; omega)
  have extended : (zeroExtended file.bytes size).drop offset = file.bytes.drop offset ++
      replicate (size - file.bytes.length - (offset - file.bytes.length)) 0 := by
    rw [zeroExtended, drop_append, drop_replicate]
  have available : (file.bytes.drop offset).length = file.bytes.length - offset :=
    length_drop
  unfold sectionData
  rw [words, start, wide, whole]
  simp only [sectionReader, if_neg (by omega : ¬ (offset : Int) < 0), Int.toNat_natCast]
  by_cases short : file.bytes.length < offset + length
  · have zeros : ((length : Int) - ((file.bytes.length : Int) - offset)).toNat =
        length + offset - file.bytes.length := by omega
    rw [if_pos (by omega), if_neg (by omega), readable]
    simp only [Stream.append, nullReader]
    rw [readFull_of_le (by simp only [length_append, length_replicate]; omega), extended]
    exact congrArg Except.ok (take_zeros (by omega) (by omega))
  · rw [if_neg (by omega), if_pos (by omega),
      readFull_of_le (by simp only [length_take]; omega), extended, take_take,
      min_self, take_append_of_le_length (by omega)]

def pieceLeaves (ext : Externals) (raw : Bytes) (m : Nat) : List Node :=
  ext.fr32Pad (zeroExtended raw (127 * 2 ^ (m - 7)))

omit documented in
theorem zeroExtended_length (fits : raw.length ≤ size) : (zeroExtended raw size).length = size := by
  grind [zeroExtended]

theorem pieceLeaves_length (large : 7 ≤ m) (fits : raw.length ≤ 127 * 2 ^ (m - 7)) :
    (pieceLeaves ext raw m).length = 2 ^ (m - 5) := by
  have nodes := documented.pad_length (2 ^ (m - 7)) _ (zeroExtended_length fits)
  rw [pieceLeaves, show m - 5 = m - 7 + 2 by omega, Nat.pow_add]
  omega

/-- The section tree of a leaf is the part of the piece tree below its snapshot node. -/
theorem sectionProof_eq (small : k ≤ 23) (reported : file.reportedSize = file.bytes.length)
    (readable : file.failure = none) (large : 7 ≤ m) (fits : file.bytes.length ≤ 127 * 2 ^ (m - 7))
    (inner : rest < 2 ^ (k + 2)) (inside : (index + 1) * 2 ^ (k + 2) ≤ 2 ^ (m - 5)) :
    sectionProof ext file (sectionParams k index rest) =
      .ok ⟨cell (pieceLeaves ext file.bytes m) (index * 2 ^ (k + 2) + rest),
        siblings (node ext.parent (cell (pieceLeaves ext file.bytes m))) 0
          (index * 2 ^ (k + 2) + rest) (k + 2),
        node ext.parent (cell (pieceLeaves ext file.bytes m)) (k + 2) index⟩ := by
  have bound : 2 ^ k ≤ 2 ^ 23 := Nat.pow_le_pow_right (by decide) small
  have width : 2 ^ (k + 2) = 4 * 2 ^ k := by
    ring
  have room : 2 ^ k * index + 2 ^ k ≤ 2 ^ (m - 7) := by
    rw [width, show m - 5 = m - 7 + 2 by omega, Nat.pow_add] at inside
    have blocks : (index + 1) * (4 * 2 ^ k) = 4 * (2 ^ k * index + 2 ^ k) := by ring
    omega
  have extended := zeroExtended_length fits
  have subroot := documented.unpadded_blocks (2 ^ k) (by omega)
  -- The bytes of the section, and the leaves they are padded to.
  obtain ⟨part, bytes⟩ : ∃ part, part = ((zeroExtended file.bytes (127 * 2 ^ (m - 7))).drop
      (127 * (2 ^ k * index))).take (127 * 2 ^ k) := ⟨_, rfl⟩
  have read : readFull (sectionData ext file (sectionParams k index rest)) (127 * 2 ^ k) =
      .ok part := by
    rw [bytes]
    refine sectionData_read reported readable rfl rfl ?_ (by omega) (by omega)
    simp only [sectionParams]
    rw [subroot]
    exact int64_of_lt (by omega)
  have cells : ∀ i < 2 ^ (k + 2), cell (ext.fr32Pad part) i =
      cell (pieceLeaves ext file.bytes m) (index * 2 ^ (k + 2) + i) := by
    intro i below
    rw [bytes, cell_pad_section documented extended room (by omega)]
    congr 1
    ring
  have leaves := documented.pad_length (2 ^ k) part (by
    rw [bytes, length_take, length_drop]
    omega)
  obtain ⟨memtree, built, proved⟩ := hashLeaves_proves ext (leaves.trans width.symm) inner
  have path := siblings_subtree ext.parent cells inner
  have root := node_subtree ext.parent cells (Nat.le_refl (k + 2))
    (by rw [Nat.sub_self]; exact Nat.one_pos)
  rw [Nat.sub_self, Nat.pow_zero, Nat.mul_one] at root
  rw [cells rest inner, path, root] at proved
  have count : ext.padded (127 * 2 ^ k) / nodeSize = 2 ^ (k + 2) := by
    rw [documented.padded_blocks (2 ^ k) (by omega)]
    simp only [nodeSize]
    omega
  have fitting : ¬ maxMemtreeSize < ext.padded (127 * 2 ^ k) := by
    rw [documented.padded_blocks (2 ^ k) (by omega)]
    simp only [maxMemtreeSize]
    omega
  have memtree_eq : buildSha254Memtree ext (sectionData ext file (sectionParams k index rest))
      (ext.unpadded (sectionParams k index rest).subrootSize) = .ok memtree := by
    rw [show (sectionParams k index rest).subrootSize = 128 * 2 ^ k from rfl, subroot,
      buildSha254Memtree, if_neg fitting, read, wrap_ok, ok_bind, count, built]
  rw [sectionProof, memtree_eq]
  exact wrap_eq_ok.mpr proved

def snapshotLayer (ext : Externals) (leaves : List Node) (level count : Nat) : List Node :=
  (range count).map (node ext.parent (cell leaves) level)

omit documented in
theorem cell_snapshotLayer {count : Nat} (inside : i < count) :
    cell (snapshotLayer ext leaves level count) i = node ext.parent (cell leaves) level i := by
  simp [cell, snapshotLayer, inside]

omit documented in
/-- The tree over a snapshot layer is the upper part of the piece tree. -/
theorem snapshotProof_eq {height : Nat} (fits : 2 ^ height * nodeSize ≤ maxMemtreeSize)
    (inside : index < 2 ^ height) :
    snapshotProof ext (snapshotLayer ext leaves level (2 ^ height)) index =
      .ok ⟨node ext.parent (cell leaves) level index,
        siblings (node ext.parent (cell leaves)) level index height,
        node ext.parent (cell leaves) (level + height) 0⟩ := by
  have length : (snapshotLayer ext leaves level (2 ^ height)).length = 2 ^ height := by
    simp [snapshotLayer]
  obtain ⟨memtree, built, proved⟩ := hashLeaves_proves ext length inside
  have same : ∀ i < 2 ^ height, cell (snapshotLayer ext leaves level (2 ^ height)) i =
      node ext.parent (cell leaves) level (0 * 2 ^ height + i) := by
    intro i below
    rw [cell_snapshotLayer below, Nat.zero_mul, Nat.zero_add]
  have path := siblings_subtree ext.parent same inside
  have root := node_subtree ext.parent same (Nat.le_refl height)
    (by rw [Nat.sub_self]; exact Nat.one_pos)
  rw [Nat.zero_mul, Nat.zero_add, siblings_node] at path
  rw [Nat.zero_mul, node_node] at root
  rw [cell_snapshotLayer inside, path, root] at proved
  rw [snapshotProof, buildSha254MemtreeFromSnapshot, if_neg (by rw [length]; omega),
    Nat.mul_div_cancel _ (by decide : 0 < nodeSize), length, built]
  exact wrap_eq_ok.mpr proved

end Sections

/-- A cache that holds one layer for a piece, and nothing else of that layer. -/
structure HoldsLayer {Cid : Type} (cache : ProofCache Cid) (pieceCidV2 : Cid) (layerIdx : Nat)
    (layer : List Node) : Prop where
  index : cache.getLayerIndex pieceCidV2 = .ok (some layerIdx)
  nodes : ∀ i : Nat, cache.getNode pieceCidV2 layerIdx i = .ok layer[i]?
  rows : cache.getLayer pieceCidV2 layerIdx = .ok layer

theorem layer_bounds (large : 7 ≤ m) (high : 2 ^ layerIdx * nodeSize ≤ min (2 ^ m) maxMemtreeSize) :
    layerIdx ≤ m - 5 ∧ layerIdx ≤ 25 ∧ 2 ^ m / nodeSize = 2 ^ (m - 5) := by
  have whole : 2 ^ m = 2 ^ (m - 5) * nodeSize := by
    rw [show nodeSize = 2 ^ 5 from rfl, ← Nat.pow_add, Nat.sub_add_cancel (by omega)]
  have below : 2 ^ layerIdx * nodeSize ≤ 2 ^ (m - 5) * nodeSize := by
    rw [← whole]
    exact le_trans high (min_le_left _ _)
  have small : 2 ^ layerIdx * nodeSize ≤ 2 ^ 25 * nodeSize :=
    le_trans high (min_le_right _ _)
  refine ⟨?_, ?_, ?_⟩
  · exact (Nat.pow_le_pow_iff_right (by decide)).mp (Nat.le_of_mul_le_mul_right below (by decide))
  · exact (Nat.pow_le_pow_iff_right (by decide)).mp (Nat.le_of_mul_le_mul_right small (by decide))
  · rw [whole, Nat.mul_div_cancel _ (by decide)]

section Equality

variable {Cid : Type} {ext : Externals} {reader : PieceReader Cid} {cache : ProofCache Cid}
  {pieceCidV2 : Cid} {file : PieceFile} {m layerIdx challengedLeaf : Nat}
  (documented : ext.Documented) (opened : reader pieceCidV2 = .ok file)
  (readable : file.failure = none) (reported : file.reportedSize = file.bytes.length)
  (padded : ext.padded (ext.paddedSize file.bytes.length) = 2 ^ m)
  (low : 2 ≤ layerIdx) (high : 2 ^ layerIdx * nodeSize ≤ min (2 ^ m) maxMemtreeSize)
  (inside : challengedLeaf < 2 ^ m / nodeSize)
  (holds : HoldsLayer cache pieceCidV2 layerIdx
    (snapshotLayer ext (pieceLeaves ext file.bytes m) layerIdx (2 ^ (m - 5 - layerIdx))))
include documented opened readable reported padded low high inside holds

/-- Up to the snapshot layer nothing fails; what is left is the tree over that layer. -/
theorem generateCachedProof_section (wide : m ≤ 62) :
    generateCachedProof ext reader cache pieceCidV2 challengedLeaf =
      (snapshotProof ext
          (snapshotLayer ext (pieceLeaves ext file.bytes m) layerIdx (2 ^ (m - 5 - layerIdx)))
          (challengedLeaf / 2 ^ layerIdx : Nat) >>= fun upperProof =>
        .ok (some (combineSplitProofs
          ⟨cell (pieceLeaves ext file.bytes m) challengedLeaf,
            siblings (node ext.parent (cell (pieceLeaves ext file.bytes m))) 0 challengedLeaf
              layerIdx,
            node ext.parent (cell (pieceLeaves ext file.bytes m)) layerIdx
              (challengedLeaf / 2 ^ layerIdx)⟩ upperProof))) := by
  obtain ⟨large, fits⟩ := documented.paddedSize_holds file.fits padded
  obtain ⟨below, small, wholeLeaves⟩ := layer_bounds large high
  have split : 2 ^ (m - 5) = 2 ^ layerIdx * 2 ^ (m - 5 - layerIdx) := by
    rw [← Nat.pow_add, Nat.add_sub_cancel' below]
  rw [wholeLeaves, split] at inside
  have slot := Nat.div_lt_of_lt_mul inside
  have leaf := Nat.div_add_mod' challengedLeaf (2 ^ layerIdx)
  have inner := Nat.mod_lt challengedLeaf (Nat.two_pow_pos layerIdx)
  have bounded : challengedLeaf < 2 ^ 58 := by
    rw [← split] at inside
    exact lt_of_lt_of_le inside (Nat.pow_le_pow_right (by decide) (by omega))
  generalize challengedLeaf / 2 ^ layerIdx = index at *
  generalize challengedLeaf % 2 ^ layerIdx = rest at *
  obtain ⟨k, rfl⟩ := Nat.exists_eq_add_of_le' low
  subst leaf
  have room : (index + 1) * 2 ^ (k + 2) ≤ 2 ^ (m - 5) := by
    rw [split, Nat.mul_comm]
    exact Nat.mul_le_mul_left _ slot
  have stored : cache.getNode pieceCidV2 (k + 2 : Nat) (index : Nat) = .ok (some
      (node ext.parent (cell (pieceLeaves ext file.bytes m)) (k + 2) index)) := by
    rw [holds.nodes index]
    simp [snapshotLayer, slot]
  unfold generateCachedProof
  rw [holds.index, ofCall_ok, wrap_ok, ok_bind]
  simp only
  rw [computeCacheProofParams_eq documented (by omega) inner bounded, ok_bind,
    show (sectionParams k index rest).snapshotNodeIndex = (index : Int) from rfl, stored,
    ofCall_ok, wrap_ok, ok_bind]
  simp only
  rw [opened, ofCall_ok, wrap_ok, ok_bind,
    sectionProof_eq documented (by omega) reported readable large fits inner room, ok_bind,
    if_neg (not_not_intro rfl), holds.rows, ofCall_ok, wrap_ok, ok_bind]

theorem generateCachedProof_eq_memtreeProof
    (layerFits : 2 ^ (m - 5 - layerIdx) * nodeSize ≤ maxMemtreeSize) :
    ∃ fullMemtree proof,
      hashLeaves ext (2 ^ m / nodeSize) (pieceLeaves ext file.bytes m) = .ok fullMemtree ∧
      (2 ^ m ≤ maxMemtreeSize →
        buildSha254Memtree ext ⟨zeroExtended file.bytes (127 * 2 ^ (m - 7)), none⟩
          (127 * 2 ^ (m - 7)) = .ok fullMemtree) ∧
      memtreeProof fullMemtree challengedLeaf = .ok proof ∧
      generateCachedProof ext reader cache pieceCidV2 challengedLeaf = .ok (some proof) := by
  obtain ⟨large, fits⟩ := documented.paddedSize_holds file.fits padded
  obtain ⟨below, small, wholeLeaves⟩ := layer_bounds large high
  have upper : m - 5 - layerIdx ≤ 25 := by
    have bound : 2 ^ (m - 5 - layerIdx) * nodeSize ≤ 2 ^ 25 * nodeSize := layerFits
    exact (Nat.pow_le_pow_iff_right (by decide)).mp (Nat.le_of_mul_le_mul_right bound (by decide))
  have cached := generateCachedProof_section documented opened readable reported padded low high
    inside holds (by omega)
  rw [wholeLeaves] at inside ⊢
  obtain ⟨fullMemtree, built, proved⟩ :=
    hashLeaves_proves ext (pieceLeaves_length documented large fits) inside
  refine ⟨fullMemtree, _, built, ?_, proved, ?_⟩
  · intro whole
    have blocks : 128 * 2 ^ (m - 7) = 2 ^ m := by
      rw [show 128 = 2 ^ 7 from rfl, ← Nat.pow_add, Nat.add_sub_cancel' large]
    have size := documented.padded_blocks (2 ^ (m - 7)) (by
      rw [blocks]
      exact lt_of_le_of_lt whole (by decide))
    rw [buildSha254Memtree, size, blocks, if_neg (by omega), readFull_of_le (by
      rw [zeroExtended_length fits]), take_of_length_le (by
      rw [zeroExtended_length fits]), wholeLeaves]
    exact built
  · have slot : challengedLeaf / 2 ^ layerIdx < 2 ^ (m - 5 - layerIdx) := by
      apply Nat.div_lt_of_lt_mul
      rw [← Nat.pow_add, Nat.add_sub_cancel' below]
      exact inside
    rw [cached, snapshotProof_eq layerFits slot, ok_bind, Nat.add_sub_cancel' below,
      combineSplitProofs]
    have path := siblings_add (node ext.parent (cell (pieceLeaves ext file.bytes m))) 0
      challengedLeaf layerIdx (m - 5 - layerIdx)
    rw [Nat.zero_add, Nat.add_sub_cancel' below] at path
    rw [path]

/-- The layer is built into a memtree of its own, with the same size limit. -/
theorem generateCachedProof_layer_too_large (wide : m ≤ 62)
    (tooLarge : maxMemtreeSize < 2 ^ (m - 5 - layerIdx) * nodeSize) :
    ∃ message, generateCachedProof ext reader cache pieceCidV2 challengedLeaf = fail message := by
  rw [generateCachedProof_section documented opened readable reported padded low high inside holds
    wide, snapshotProof, buildSha254MemtreeFromSnapshot]
  have length : (snapshotLayer ext (pieceLeaves ext file.bytes m) layerIdx
      (2 ^ (m - 5 - layerIdx))).length = 2 ^ (m - 5 - layerIdx) := by
    simp [snapshotLayer]
  rw [length, if_pos tooLarge]
  exact ⟨_, rfl⟩

end Equality

def littleEndian : Bytes → Nat
  | [] => 0
  | byte :: rest => byte.toNat + 256 * littleEndian rest

def nodeOfNat (value : Nat) : Node := Vector.ofFn (fun i => UInt8.ofNat (value / 256 ^ i.val))

def padBlock (block : Bytes) : List Node :=
  (range 4).map (fun i => nodeOfNat (littleEndian block / 2 ^ (254 * i) % 2 ^ 254))

def padBlocks : Nat → Bytes → List Node
  | 0, _ => []
  | blocks + 1, data => padBlock (data.take 127) ++ padBlocks blocks (data.drop 127)

theorem padBlocks_length (blocks : Nat) (data : Bytes) :
    (padBlocks blocks data).length = 4 * blocks := by
  induction blocks generalizing data with
  | zero => rfl
  | succ blocks ih =>
    rw [padBlocks, length_append, ih, padBlock, length_map, length_range]
    ring

theorem padBlocks_append {front back : Bytes} (whole : front.length = 127 * first) :
    padBlocks (first + second) (front ++ back) = padBlocks first front ++ padBlocks second back := by
  induction first generalizing front with
  | zero | succ first ih => grind [padBlocks]

/-- The piece size functions and `fr32.Pad` as they compute, with a stand-in for SHA-256. -/
def referenceExternals : Externals where
  sha256 := mixHash
  unpadded := fun size => size - size / 128
  padded := fun size => size + size / 127
  paddedSize := fun size => 127 * 2 ^ Nat.clog 2 ((size + 126) / 127)
  fr32Pad := fun data => padBlocks (data.length / 127) data
  pool := fun _ => zeroNode

theorem referenceExternals_documented : referenceExternals.Documented where
  unpadded_le := by
    intro size
    simp only [referenceExternals]
    omega
  unpadded_blocks := by
    intro blocks _
    simp only [referenceExternals]
    omega
  padded_blocks := by
    intro blocks _
    simp only [referenceExternals]
    omega
  paddedSize_exact := by
    intro k _
    have exact : (127 * 2 ^ k + 126) / 127 = 2 ^ k := by omega
    simp only [referenceExternals, exact]
    rw [Nat.clog_pow 2 k (by decide)]
  paddedSize_valid := by
    intro size bound
    refine ⟨Nat.clog 2 ((size + 126) / 127), ?_, rfl, ?_⟩
    · exact (Nat.clog_le_iff_le_pow (by decide)).mpr (by omega)
    · have reach := Nat.le_pow_clog (by decide : 1 < 2) ((size + 126) / 127)
      omega
  pad_append := by
    rintro front back ⟨first, frontLength⟩ ⟨second, backLength⟩
    simp only [referenceExternals, length_append]
    rw [frontLength, backLength, ← Nat.mul_add, Nat.mul_div_cancel_left _ (by decide),
      Nat.mul_div_cancel_left _ (by decide), Nat.mul_div_cancel_left _ (by decide)]
    exact padBlocks_append frontLength
  pad_length := by
    intro blocks data length
    simp only [referenceExternals]
    rw [padBlocks_length, length, Nat.mul_div_cancel_left _ (by decide)]

def fileReader (file : PieceFile) : PieceReader Unit := fun _ => .ok file

def layerCache (layerIdx : Nat) (layer : List Node) : ProofCache Unit where
  getLayerIndex := fun _ => .ok (some layerIdx)
  getNode := fun _ asked index => .ok (if asked = layerIdx then layer[index.toNat]? else none)
  getLayer := fun _ asked => .ok (if asked = layerIdx then layer else [])

theorem layerCache_holds {layer : List Node} :
    HoldsLayer (layerCache layerIdx layer) () layerIdx layer where
  index := rfl
  nodes := by simp [layerCache]
  rows := by simp [layerCache]

def shortFile : PieceFile where
  bytes := [1, 2, 3]
  reportedSize := 3
  fits := by decide
  reportedFits := by decide

def evenFile (length : Nat) (fits : length ≤ 127 * 2 ^ 56) : PieceFile where
  bytes := replicate length 5
  reportedSize := length
  fits := by rwa [length_replicate]
  reportedFits := fits

def fewLeaves : PieceFile := evenFile 300 (by decide)

/-- The layer has four nodes, and the last leaf is beyond the file. -/
theorem generateCachedProof_four_nodes :
    ∃ fullMemtree proof,
      hashLeaves referenceExternals (2 ^ 9 / nodeSize)
        (pieceLeaves referenceExternals fewLeaves.bytes 9) = .ok fullMemtree ∧
      (2 ^ 9 ≤ maxMemtreeSize →
        buildSha254Memtree referenceExternals ⟨zeroExtended fewLeaves.bytes (127 * 2 ^ (9 - 7)), none⟩
          (127 * 2 ^ (9 - 7)) = .ok fullMemtree) ∧
      memtreeProof fullMemtree (15 : Nat) = .ok proof ∧
      generateCachedProof referenceExternals (fileReader fewLeaves)
        (layerCache 2 (snapshotLayer referenceExternals
          (pieceLeaves referenceExternals fewLeaves.bytes 9) 2 (2 ^ (9 - 5 - 2)))) () (15 : Nat) =
        .ok (some proof) := by
  have length : fewLeaves.bytes.length = 300 := length_replicate
  exact generateCachedProof_eq_memtreeProof referenceExternals_documented rfl rfl length.symm
    (by rw [length]; decide) (by decide) (by decide) (by decide) layerCache_holds (by decide)

def largeFile : PieceFile := evenFile (127 * 2 ^ 26) (by decide)

/-- Its nodes at level two take 2 GiB, more than a memtree may. -/
theorem generateCachedProof_large_file_fails :
    referenceExternals.padded (referenceExternals.paddedSize largeFile.bytes.length) = 2 ^ 33 ∧
      2 ^ 2 * nodeSize ≤ min (2 ^ 33) maxMemtreeSize ∧ 0 < 2 ^ 33 / nodeSize ∧
      HoldsLayer (layerCache 2 (snapshotLayer referenceExternals
        (pieceLeaves referenceExternals largeFile.bytes 33) 2 (2 ^ (33 - 5 - 2)))) () 2
        (snapshotLayer referenceExternals (pieceLeaves referenceExternals largeFile.bytes 33) 2
          (2 ^ (33 - 5 - 2))) ∧
      ¬ ∃ proof, generateCachedProof referenceExternals (fileReader largeFile)
        (layerCache 2 (snapshotLayer referenceExternals
          (pieceLeaves referenceExternals largeFile.bytes 33) 2 (2 ^ (33 - 5 - 2)))) () (0 : Nat) =
        .ok (some proof) := by
  have length : largeFile.bytes.length = 127 * 2 ^ 26 := length_replicate
  have padded : referenceExternals.padded
      (referenceExternals.paddedSize largeFile.bytes.length) = 2 ^ 33 := by
    rw [length]
    decide
  obtain ⟨message, failed⟩ := generateCachedProof_layer_too_large referenceExternals_documented
    (rfl : fileReader largeFile () = .ok largeFile) rfl length.symm
    padded (Nat.le_refl 2) (by decide : 2 ^ 2 * nodeSize ≤ min (2 ^ 33) maxMemtreeSize)
    (by decide : 0 < 2 ^ 33 / nodeSize) layerCache_holds (by decide) (by decide)
  refine ⟨padded, by decide, by decide, layerCache_holds, ?_⟩
  rintro ⟨proof, returned⟩
  rw [returned] at failed
  cases failed

end Curio.Proof
