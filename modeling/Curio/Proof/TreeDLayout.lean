import Curio.FileWrites
import Curio.Proof.HashChunk

/-! Where the levels of a tree lie in the file `BuildTreeD` writes: `binTreeSize` and `layerOffset`
of `lib/proof/treed_build.go`, against the file that holds the levels one after the other. -/

namespace Curio.Proof

open GoRuntime BinaryMerkle FileWrites List

def threadChunkSize : Nat := 1 <<< 20

/-- The size is a `uint64` that is counted in `int64` nodes. -/
def binTreeSize (size : Nat) : Nat :=
  let nodes := (computeTotalNodes (int64 size / nodeSize).toNat binary).1
  uint64 (nodes * nodeSize)

/-- `layer` ones below the highest bit of the size; a shift by 64 or more leaves nothing. -/
def layerOffset (size layer : Nat) : Go Nat :=
  let allOnes := 0xffff_ffff_ffff_ffff
  let layerOnes := allOnes >>> uint64 (64 - layer)
  let sizeBitPos : Int := size.size - 1
  let shift := sizeBitPos - (layer - 1)
  if shift < 0 then panics "negative shift amount" else .ok ((layerOnes <<< shift.toNat) % 2 ^ 64)

theorem two_pow_leaves (height : Nat) : 2 ^ (height + 5) = nodeSize * 2 ^ height := by
  rw [pow_add, mul_comm]
  rfl

def layerStart (height layer : Nat) : Nat := 2 ^ (height + 6) - 2 ^ (height + 6 - layer)

variable {height layer count : Nat}

theorem layerStart_succ (inside : layer ≤ height) :
    layerStart height (layer + 1) = layerStart height layer + nodeSize * 2 ^ (height - layer) := by
  have half : 2 ^ (height + 6 - (layer + 1)) = nodeSize * 2 ^ (height - layer) := by
    rw [show height + 6 - (layer + 1) = height - layer + 5 by omega, two_pow_leaves]
  have width : 2 ^ (height + 6 - layer) = nodeSize * 2 ^ (height - layer) * 2 := by
    rw [show height + 6 - layer = height - layer + 5 + 1 by omega, pow_succ, two_pow_leaves]
  have whole : 2 ^ (height + 6 - layer) ≤ 2 ^ (height + 6) :=
    Nat.pow_le_pow_right (by decide) (Nat.sub_le _ _)
  rw [layerStart, layerStart]
  omega

theorem layer_of_position {position : Nat} (few : count ≤ height + 1)
    (inside : position < layerStart height count) :
    ∃ layer < count, layerStart height layer ≤ position ∧
      position < layerStart height layer + nodeSize * 2 ^ (height - layer) := by
  induction count with
  | zero => simp [layerStart] at inside
  | succ count ih =>
    by_cases earlier : position < layerStart height count
    · grind
    · rw [layerStart_succ (Nat.le_of_succ_le_succ few)] at inside
      exact ⟨count, Nat.lt_succ_self count, Nat.le_of_not_lt earlier, inside⟩

theorem binTreeSize_eq (small : height ≤ 57) :
    binTreeSize (2 ^ (height + 5)) = layerStart height (height + 1) := by
  have bound : 2 ^ height ≤ 2 ^ 57 := Nat.pow_le_pow_right (by decide) small
  have leaves : (int64 (2 ^ (height + 5) : Nat) / nodeSize).toNat = 2 ^ height := by
    rw [two_pow_leaves, int64_of_lt (by simp only [nodeSize]; omega)]
    simp only [nodeSize]
    omega
  have total : (computeTotalNodes (2 ^ height) binary).1 * nodeSize =
      layerStart height (height + 1) := by
    have sum := levelCounts_sum_two_pow height
    rw [layerStart, show height + 6 - (height + 1) = 5 by omega, two_pow_leaves]
    simp only [computeTotalNodes, nodeSize]
    omega
  rw [binTreeSize, leaves, ← Nat.cast_mul, total, uint64_of_lt]
  apply lt_of_le_of_lt (Nat.sub_le _ _)
  exact Nat.pow_lt_pow_right (by decide) (by omega)

theorem layerOffset_eq (small : height ≤ 57) (inside : layer ≤ height) :
    layerOffset (2 ^ (height + 5)) layer = .ok (layerStart height layer) := by
  have ones : 0xffff_ffff_ffff_ffff >>> uint64 (64 - layer) = 2 ^ layer - 1 := by
    have shift : uint64 (64 - layer) = 64 - layer := by
      have word := uint64_of_lt (by omega : 64 - layer < 2 ^ 64)
      rw [← word]
      congr 1
      omega
    have split : 2 ^ 64 = 2 ^ layer * 2 ^ (64 - layer) := by
      rw [← pow_add, Nat.add_sub_cancel' (by omega)]
    have low := Nat.two_pow_pos layer
    have high := Nat.two_pow_pos (64 - layer)
    rw [shift, Nat.shiftRight_eq_div_pow]
    apply Nat.div_eq_of_lt_le
    · rw [Nat.sub_mul]
      omega
    · rw [Nat.sub_add_cancel low]
      omega
  have position : (((2 ^ (height + 5)).size : Int) - 1 - (layer - 1)).toNat =
      height + 6 - layer := by
    rw [Nat.size_pow]
    omega
  have split : 2 ^ (height + 6) = 2 ^ layer * 2 ^ (height + 6 - layer) := by
    rw [← pow_add, Nat.add_sub_cancel' (by omega)]
  have word : 2 ^ (height + 6) < 2 ^ 64 := Nat.pow_lt_pow_right (by decide) (by omega)
  rw [layerOffset, ones, if_neg (by rw [Nat.size_pow]; omega), position, Nat.shiftLeft_eq,
    Nat.sub_mul, one_mul, ← split, Nat.mod_eq_of_lt (lt_of_le_of_lt (Nat.sub_le _ _) word),
    layerStart]

def nodeBytes (nodes : List Node) : Bytes := nodes.flatMap Vector.toList

@[simp] theorem nodeBytes_append (front back : List Node) :
    nodeBytes (front ++ back) = nodeBytes front ++ nodeBytes back := flatMap_append

@[simp] theorem nodeBytes_length (nodes : List Node) :
    (nodeBytes nodes).length = nodeSize * nodes.length := by
  induction nodes with
  | nil => rfl
  | cons first rest ih =>
    simp only [nodeBytes, flatMap_cons, length_append, Vector.length_toList, length_cons] at ih ⊢
    rw [ih, nodeSize]
    ring

variable (ext : Externals) (leaf : Nat → Node) (height : Nat)

/-- The tree as a file: all leaves, then each level, the root last. -/
def plainTree : Bytes := (levels ext.parent leaf height).flatMap nodeBytes

def treeNodes (layer start count : Nat) : List Node :=
  (range count).map (fun i => node ext.parent leaf layer (start + i))

variable {ext leaf height}

theorem levels_front_length (inside : layer ≤ height + 1) :
    (((levels ext.parent leaf height).take layer).flatMap nodeBytes).length =
      layerStart height layer := by
  induction layer with
  | zero => simp [layerStart]
  | succ layer ih =>
    have below : layer ≤ height := Nat.le_of_succ_le_succ inside
    have row : ((levels ext.parent leaf height)[layer]?).toList.flatMap nodeBytes =
        nodeBytes ((range (2 ^ (height - layer))).map (node ext.parent leaf layer)) := by
      simp [levels, Nat.lt_succ_of_le below]
    rw [take_add_one, flatMap_append, length_append, ih (by omega), row,
      nodeBytes_length, length_map, length_range, layerStart_succ below]

theorem plainTree_length : (plainTree ext leaf height).length = layerStart height (height + 1) := by
  have all : (((levels ext.parent leaf height).take (height + 1)).flatMap nodeBytes).length = _ :=
    levels_front_length (le_refl (height + 1))
  rw [take_of_length_le (by rw [levels_length])] at all
  exact all

theorem treeNodes_agrees {start : Nat} (inside : layer ≤ height)
    (room : start + count ≤ 2 ^ (height - layer)) :
    (⟨layerStart height layer + nodeSize * start,
      nodeBytes (treeNodes ext leaf layer start count)⟩ : Write UInt8).Agrees
        (plainTree ext leaf height) := by
  have row : (levels ext.parent leaf height).drop layer =
      (range (2 ^ (height - layer))).map (node ext.parent leaf layer) ::
        (levels ext.parent leaf height).drop (layer + 1) := by
    rw [drop_eq_getElem_cons (by rw [levels_length]; omega)]
    simp [levels]
  obtain ⟨rest, whole⟩ := Nat.exists_eq_add_of_le room
  refine ⟨((levels ext.parent leaf height).take layer).flatMap nodeBytes ++
      nodeBytes (treeNodes ext leaf layer 0 start),
    nodeBytes (treeNodes ext leaf layer (start + count) rest) ++
      ((levels ext.parent leaf height).drop (layer + 1)).flatMap nodeBytes, ?_, ?_⟩
  · rw [plainTree]
    conv_lhs => rw [← take_append_drop layer (levels ext.parent leaf height)]
    rw [flatMap_append, row, flatMap_cons, whole, range_add, range_add]
    simp only [treeNodes, map_append, map_map, nodeBytes_append, append_assoc,
      zero_add, Function.comp_def]
  · rw [length_append, levels_front_length (by omega), nodeBytes_length, treeNodes,
      length_map, length_range]

end Curio.Proof
