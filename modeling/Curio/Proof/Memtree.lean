import Curio.GoRuntime
import Curio.Proof.TreeSize
import Curio.Proof.Verify

/-! Flat in-memory trees: `lib/proof/merkle_sha254_memtree.go` and
`lib/proof/merkle_proof_memtree.go`. A buffer is a list of nodes, offsets count nodes. -/

namespace Curio.Proof

open GoRuntime BinaryMerkle List

/-- The libraries a memtree is built with: `sha256-simd`, the piece sizes of `go-state-types` and
`go-padreader`, `fr32.Pad` with its output read as nodes, and the stale content of a buffer
from `go-buffer-pool`. -/
structure Externals where
  sha256 : Bytes → Node
  unpadded : Nat → Nat
  padded : Nat → Nat
  paddedSize : Nat → Nat
  fr32Pad : Bytes → List Node
  pool : Nat → Node

def Externals.parent (ext : Externals) : Node → Node → Node := computeBinShaParent ext.sha256

def maxMemtreeSize : Nat := 1 <<< 30

def layout : Nat → List Nat → List (Nat × Nat)
  | _, [] => []
  | start, size :: rest => (size, start) :: layout (start + size) rest

def hashLevel (ext : Externals) (prevLevelStart currLevelStart levelNodes : Nat)
    (memtreeBuf : List Node) : Go (List Node) :=
  forRange levelNodes (fun memtreeBuf i => do
      let left ← readAt memtreeBuf (prevLevelStart + 2 * i)
      let right ← readAt memtreeBuf (prevLevelStart + 2 * i + 1)
      writeAt memtreeBuf (currLevelStart + i) (ext.parent left right))
    memtreeBuf

def hashLevels (ext : Externals) : List (Nat × Nat) → List Node → Go (List Node)
  | (_, prevLevelStart) :: (levelNodes, currLevelStart) :: rest, memtreeBuf => do
      let memtreeBuf ← hashLevel ext prevLevelStart currLevelStart levelNodes memtreeBuf
      hashLevels ext ((levelNodes, currLevelStart) :: rest) memtreeBuf
  | _, memtreeBuf => .ok memtreeBuf

/-- What both builders do once the leaves are known: a buffer for all levels with the leaves in
front, hashed level by level. Without leaves `levelStarts[0]` does not exist. -/
def hashLeaves (ext : Externals) (nLeaves : Nat) (leaves : List Node) : Go (List Node) :=
  let (totalNodes, levelSizes) := computeTotalNodes nLeaves binary
  let stale := (range (totalNodes - leaves.length)).map ext.pool
  if levelSizes.isEmpty then panics "index out of range"
  else hashLevels ext (layout 0 levelSizes) (leaves ++ stale)

def buildSha254Memtree (ext : Externals) (rawIn : Stream) (size : Nat) : Go (List Node) :=
  if maxMemtreeSize < ext.padded size then fail s!"piece too large for memtree: {size}"
  else do
    let unpadBuf ← wrap "failed to read into unpadBuf" (readFull rawIn size)
    hashLeaves ext (ext.padded size / nodeSize) (ext.fr32Pad unpadBuf)

def buildSha254MemtreeFromSnapshot (ext : Externals) (data : List Node) : Go (List Node) :=
  let size := data.length * nodeSize
  if maxMemtreeSize < size then fail s!"piece too large for memtree: {size}"
  else hashLeaves ext (size / nodeSize) data

/-- Collect the sibling at every level below the last; the node itself is read for a log line. -/
def siblingPath (memtree : List Node) : List (Nat × Nat) → Nat → Go (List Node)
  | (_, levelStart) :: next :: rest, index => do
      let _node ← readAt memtree (levelStart + index)
      let siblingHash ← readAt memtree (levelStart + (index ^^^ 1))
      let path ← siblingPath memtree (next :: rest) (index / 2)
      .ok (siblingHash :: path)
  | _, _ => .ok []

def rootStart (levels : List (Nat × Nat)) : Nat := (levels.getLast?.map Prod.snd).getD 0

/-- Level counts are rebuilt from the buffer length; from zero leaves that loop does not end. -/
def memtreeProof (memtree : List Node) (leafIndex : Int) : Go RawMerkleProof :=
  let totalNodes := memtree.length
  let nLeaves := (totalNodes + 1) / 2
  if nLeaves = 0 then .error .hang
  else
    let levelSizes := levelCounts binary nLeaves
    let levels := layout 0 levelSizes
    if levelSizes.sum ≠ totalNodes then
      fail "invalid memtree size; reconstructed total nodes do not match"
    else if leafIndex < 0 ∨ (nLeaves : Int) ≤ leafIndex then
      fail s!"invalid leaf index {leafIndex} for {nLeaves} leaves"
    else do
      let leaf ← readAt memtree leafIndex.toNat
      let path ← siblingPath memtree levels leafIndex.toNat
      let root ← readAt memtree (rootStart levels)
      .ok ⟨leaf, path, root⟩

/-- Every node behind the first level is the parent of the two cells below it. A level of odd
size borrows the first cell of the next one. -/
def Hashed (ext : Externals) (memtree : List Node) : List (Nat × Nat) → Prop
  | (_, below) :: (count, start) :: rest =>
    (∀ i < count, cell memtree (start + i) =
      ext.parent (cell memtree (below + 2 * i)) (cell memtree (below + 2 * i + 1))) ∧
    Hashed ext memtree ((count, start) :: rest)
  | _ => True

variable {buffer leaves : List Node} {count start : Nat}

section Building

variable (ext : Externals)

theorem hashLevel_spec {below size : Nat} (several : 1 < size)
    (room : below + size + parentCount binary size ≤ buffer.length) :
    ∃ hashed, hashLevel ext below (below + size) (parentCount binary size) buffer = .ok hashed ∧
      hashed.length = buffer.length ∧
      (∀ j < below + size, cell hashed j = cell buffer j) ∧
      ∀ i < parentCount binary size, cell hashed (below + size + i) =
        ext.parent (cell hashed (below + 2 * i)) (cell hashed (below + 2 * i + 1)) := by
  rw [parentCount_binary] at *
  -- After `i` nodes only their own cells changed, and their equations stay as they are:
  -- both children of node `j` lie in front of the cell that is written next.
  refine forRange_invariant (fun done (current : List Node) =>
      current.length = buffer.length ∧
      (∀ j < below + size, cell current j = cell buffer j) ∧
      ∀ i < done, cell current (below + size + i) =
        ext.parent (cell current (below + 2 * i)) (cell current (below + 2 * i + 1)))
    ((size + 1) / 2) ⟨rfl, fun _ _ => rfl, fun _ none => absurd none (Nat.not_lt_zero _)⟩ ?_
  intro i current bound ⟨length, kept, equations⟩
  have left : below + 2 * i < current.length := by omega
  have right : below + 2 * i + 1 < current.length := by omega
  have target : below + size + i < current.length := by omega
  refine ⟨current.set (below + size + i)
    (ext.parent (cell current (below + 2 * i)) (cell current (below + 2 * i + 1))), ?_, ?_, ?_, ?_⟩
  · rw [readAt_cell left, readAt_cell right]
    exact writeAt_of_lt _ target
  · rw [length_set, length]
  · intro j inside
    rw [cell_set_other _ (by omega), kept j inside]
  · intro j before
    rw [cell_set_other _ (by omega : below + 2 * j ≠ below + size + i),
      cell_set_other _ (by omega : below + 2 * j + 1 ≠ below + size + i)]
    rcases Nat.lt_succ_iff_lt_or_eq.mp before with earlier | rfl
    · rw [cell_set_other _ (by omega), equations j earlier]
    · rw [cell_set_same _ target]

@[simp] theorem layout_nil (start : Nat) : layout start [] = [] := rfl

@[simp] theorem layout_cons (start size : Nat) (rest : List Nat) :
    layout start (size :: rest) = (size, start) :: layout (start + size) rest := rfl

theorem layout_several (start : Nat) (several : 1 < count) :
    ∃ rest, layout start (levelCounts binary count) =
        (count, start) :: (parentCount binary count, start + count) :: rest ∧
      layout (start + count) (levelCounts binary (parentCount binary count)) =
        (parentCount binary count, start + count) :: rest := by
  obtain ⟨rest, counts⟩ := levelCounts_cons (parentCount_pos binary (lt_trans one_pos several))
  refine ⟨layout (start + count + parentCount binary count) rest, ?_, ?_⟩
  · rw [levelCounts_several binary several, counts]
    rfl
  · rw [counts]
    rfl

theorem hashLevels_spec (some : 0 < count)
    (room : start + (levelCounts binary count).sum ≤ buffer.length) :
    ∃ hashed, hashLevels ext (layout start (levelCounts binary count)) buffer = .ok hashed ∧
      hashed.length = buffer.length ∧ (∀ j < start + count, cell hashed j = cell buffer j) ∧
      Hashed ext hashed (layout start (levelCounts binary count)) := by
  induction count using Nat.strong_induction_on generalizing start buffer with
  | _ count ih =>
    by_cases several : 1 < count
    · have fewer := parentCount_lt binary several
      have remain := parentCount_pos binary some
      obtain ⟨rest, whole, upper⟩ := layout_several start several
      rw [levelCounts_several binary several, sum_cons] at room
      obtain ⟨counts, first⟩ := levelCounts_cons remain
      have wide : parentCount binary count ≤
          (levelCounts binary (parentCount binary count)).sum := by
        grind
      obtain ⟨middle, hashedLevel, length, kept, equations⟩ :=
        hashLevel_spec ext several (by omega : start + count + parentCount binary count ≤
          buffer.length)
      obtain ⟨final, hashedRest, finalLength, keptAbove, above⟩ :=
        ih (parentCount binary count) fewer remain
          (by omega : start + count + (levelCounts binary (parentCount binary count)).sum ≤
            middle.length)
      refine ⟨final, ?_, finalLength.trans length, ?_, ?_⟩
      · rw [upper] at hashedRest
        rw [whole, hashLevels, hashedLevel]
        exact hashedRest
      · intro j inside
        rw [keptAbove j (by omega), kept j inside]
      · rw [upper] at above
        rw [whole]
        refine ⟨?_, above⟩
        grind
    · have single : count = 1 := by omega
      subst single
      refine ⟨buffer, ?_, rfl, fun _ _ => rfl, ?_⟩
      · simp [hashLevels]
      · simp [Hashed]

theorem hashLeaves_spec (some : leaves ≠ []) :
    ∃ memtree, hashLeaves ext leaves.length leaves = .ok memtree ∧
      memtree.length = (levelCounts binary leaves.length).sum ∧
      (∀ j < leaves.length, cell memtree j = cell leaves j) ∧
      Hashed ext memtree (layout 0 (levelCounts binary leaves.length)) := by
  have positive : 0 < leaves.length := length_pos_of_ne_nil some
  obtain ⟨rest, counts⟩ := levelCounts_cons positive
  have wide : leaves.length ≤ (levelCounts binary leaves.length).sum := by
    grind
  have length : (leaves ++ (range ((levelCounts binary leaves.length).sum -
      leaves.length)).map ext.pool).length = (levelCounts binary leaves.length).sum := by
    simp only [length_append, length_map, length_range]
    omega
  obtain ⟨memtree, built, same, kept, hashed⟩ := hashLevels_spec ext positive
    (by rw [length, zero_add])
  refine ⟨memtree, ?_, same.trans length, ?_, hashed⟩
  · have present : (levelCounts binary leaves.length).isEmpty = false := by
      rw [counts]
      rfl
    simpa [hashLeaves, computeTotalNodes, present] using built
  · intro j inside
    rw [kept j (by omega), cell_append_left _ inside]

end Building

variable {ext : Externals} {memtree : List Node} {index height level : Nat} {leaf : Nat → Node}

theorem rootStart_lt {length : Nat} (some : 0 < count)
    (room : start + (levelCounts binary count).sum ≤ length) :
    rootStart (layout start (levelCounts binary count)) < length := by
  induction count using Nat.strong_induction_on generalizing start with
  | _ count ih =>
    by_cases several : 1 < count
    · obtain ⟨rest, whole, upper⟩ := layout_several start several
      rw [levelCounts_several binary several, sum_cons] at room
      have above := ih (parentCount binary count) (parentCount_lt binary several)
        (parentCount_pos binary some)
        (by omega : start + count + (levelCounts binary (parentCount binary count)).sum ≤ length)
      rw [upper] at above
      rw [whole]
      exact above
    · grind [rootStart, layout, levelCounts]

/-- A buffer of any number of leaves has a path, and in a hashed one it climbs to the root cell. -/
theorem siblingPath_climb (ext : Externals) (inside : index < count)
    (room : start + (levelCounts binary count).sum ≤ memtree.length) :
    ∃ path, siblingPath memtree (layout start (levelCounts binary count)) index = .ok path ∧
      path.length + 1 = (levelCounts binary count).length ∧
      (Hashed ext memtree (layout start (levelCounts binary count)) →
        climb ext.parent index (cell memtree (start + index)) path =
          cell memtree (rootStart (layout start (levelCounts binary count)))) := by
  induction count using Nat.strong_induction_on generalizing start index with
  | _ count ih =>
    by_cases several : 1 < count
    · have fewer := parentCount_lt binary several
      have half := parentCount_binary count
      obtain ⟨rest, whole, upper⟩ := layout_several start several
      rw [levelCounts_several binary several, sum_cons] at room
      have wide : 0 < (levelCounts binary (parentCount binary count)).sum := by
        obtain ⟨counts, first⟩ := levelCounts_cons (by omega : 0 < parentCount binary count)
        rw [first, sum_cons]
        omega
      obtain ⟨path, found, depth, climbed⟩ :=
        ih (parentCount binary count) fewer (by omega : index / 2 < parentCount binary count)
          (by omega : start + count + (levelCounts binary (parentCount binary count)).sum ≤
            memtree.length)
      have own : start + index < memtree.length := by omega
      have sibling : start + (index ^^^ 1) < memtree.length := by
        have halves := xor_one_div index
        omega
      refine ⟨cell memtree (start + (index ^^^ 1)) :: path, ?_, ?_, ?_⟩
      · rw [upper] at found
        rw [whole, siblingPath, readAt_cell own, readAt_cell sibling, found]
        rfl
      · rw [levelCounts_several binary several, length_cons, length_cons, depth]
      · intro hashed
        rw [whole] at hashed
        obtain ⟨equations, above⟩ := hashed
        rw [← upper] at above
        have parent := equations (index / 2) (by omega)
        have root : rootStart (layout start (levelCounts binary count)) =
            rootStart (layout (start + count) (levelCounts binary (parentCount binary count))) := by
          rw [whole, upper, rootStart, rootStart, getLast?_cons_cons]
        rw [climb]
        rcases Nat.mod_two_eq_zero_or_one index with even | odd
        · rw [if_pos even, xor_one_even even]
          grind
        · rw [if_neg (by omega), xor_one_odd odd]
          grind
    · have single : count = 1 := by omega
      subst single
      have first : index = 0 := by omega
      subst first
      exact ⟨[], by simp [siblingPath], by simp, fun _ => by simp [climb, rootStart]⟩

section Built

variable {leaves : List Node} {leafIndex : Int}
  (built : hashLeaves ext leaves.length leaves = .ok memtree) (some : leaves ≠ [])
include built some

theorem built_spec : memtree.length = (levelCounts binary leaves.length).sum ∧
    (∀ j < leaves.length, cell memtree j = cell leaves j) ∧
    Hashed ext memtree (layout 0 (levelCounts binary leaves.length)) := by
  obtain ⟨other, again, facts⟩ := hashLeaves_spec ext some
  grind

/-- A proof from a buffer of any leaf count climbs from its leaf to the root cell, with one
sibling for every level but the last. -/
theorem memtreeProof_inside (count : (memtree.length + 1) / 2 = leaves.length) (low : 0 ≤ leafIndex)
    (high : leafIndex < leaves.length) :
    ∃ path, siblingPath memtree (layout 0 (levelCounts binary leaves.length)) leafIndex.toNat =
        .ok path ∧
      memtreeProof memtree leafIndex = .ok ⟨cell leaves leafIndex.toNat, path,
        cell memtree (rootStart (layout 0 (levelCounts binary leaves.length)))⟩ ∧
      path.length + 1 = (levelCounts binary leaves.length).length ∧
      climb ext.parent leafIndex.toNat (cell leaves leafIndex.toNat) path =
        cell memtree (rootStart (layout 0 (levelCounts binary leaves.length))) := by
  obtain ⟨length, kept, hashed⟩ := built_spec built some
  have positive : 0 < leaves.length := length_pos_of_ne_nil some
  have index : leafIndex.toNat < leaves.length := by omega
  obtain ⟨path, found, depth, climbs⟩ := siblingPath_climb ext index (by rw [length, zero_add])
  have climbed := climbs hashed
  rw [zero_add, kept _ index] at climbed
  refine ⟨path, found, ?_, depth, climbed⟩
  simp only [memtreeProof, count]
  rw [if_neg (by omega), if_neg (by omega), if_neg (by omega), readAt_cell (by omega),
    found, readAt_cell (rootStart_lt positive (by omega)), kept _ index]
  rfl

theorem memtreeProof_outside (outside : ¬ ((memtree.length + 1) / 2 = leaves.length ∧
    0 ≤ leafIndex ∧ leafIndex < leaves.length)) :
    ∃ message, memtreeProof memtree leafIndex = fail message := by
  obtain ⟨length, _, _⟩ := built_spec built some
  have wide := levelCounts_le_sum (length_pos_of_ne_nil some)
  unfold memtreeProof
  rw [if_neg (by have := length_pos_of_ne_nil some; omega)]
  by_cases sums : (levelCounts binary ((memtree.length + 1) / 2)).sum = memtree.length
  · have count : (memtree.length + 1) / 2 = leaves.length :=
      levelCounts_sum_inj (sums.trans length)
    rw [if_neg (not_not_intro sums), if_pos (by omega)]
    exact ⟨_, rfl⟩
  · rw [if_pos sums]
    exact ⟨_, rfl⟩

end Built

def Holds (value : Nat → Nat → Node) (memtree : List Node) : Nat → List (Nat × Nat) → Prop
  | _, [] => True
  | level, (count, start) :: rest =>
    (∀ i < count, cell memtree (start + i) = value level i) ∧
    Holds value memtree (level + 1) rest

theorem layout_two_pow (height start : Nat) :
    layout start (levelCounts binary (2 ^ (height + 1))) =
      (2 ^ (height + 1), start) ::
        layout (start + 2 ^ (height + 1)) (levelCounts binary (2 ^ height)) := by
  rw [levelCounts_several binary (Nat.one_lt_two_pow' height), parentCount_two_pow, layout_cons]

theorem holds_of_hashed
    (hashed : Hashed ext memtree (layout start (levelCounts binary (2 ^ height))))
    (first : ∀ i < 2 ^ height, cell memtree (start + i) = node ext.parent leaf level i) :
    Holds (node ext.parent leaf) memtree level
      (layout start (levelCounts binary (2 ^ height))) := by
  induction height generalizing level start with
  | zero => grind [Holds, layout, levelCounts]
  | succ height ih =>
    obtain ⟨rest, whole, upper⟩ := layout_several start (Nat.one_lt_two_pow' height)
    rw [parentCount_two_pow] at whole upper
    rw [whole] at hashed
    rw [layout_two_pow]
    refine ⟨first, ih (upper ▸ hashed.2) ?_⟩
    intro i bound
    rw [hashed.1 i bound, add_assoc start, first _ (by rw [pow_succ]; omega),
      first _ (by rw [pow_succ]; omega)]
    rfl

theorem holds_path {value : Nat → Nat → Node}
    (holds : Holds value memtree level (layout start (levelCounts binary (2 ^ height))))
    (room : start + (levelCounts binary (2 ^ height)).sum ≤ memtree.length)
    (inside : index < 2 ^ height) :
    siblingPath memtree (layout start (levelCounts binary (2 ^ height))) index =
        .ok (siblings value level index height) ∧
      cell memtree (rootStart (layout start (levelCounts binary (2 ^ height)))) =
        value (level + height) 0 := by
  induction height generalizing level start index with
  | zero =>
    simp only [pow_zero, levelCounts_one] at *
    exact ⟨rfl, holds.1 0 one_pos⟩
  | succ height ih =>
    obtain ⟨rest, whole, upper⟩ := layout_several start (Nat.one_lt_two_pow' height)
    rw [parentCount_two_pow] at whole upper
    rw [layout_two_pow] at holds
    rw [levelCounts_several binary (Nat.one_lt_two_pow' height), parentCount_two_pow,
      sum_cons] at room
    have half : index / 2 < 2 ^ height := by
      omega
    obtain ⟨path, root⟩ := ih holds.2 (by omega) half
    have sibling : index ^^^ 1 < 2 ^ (height + 1) := by
      have halves := xor_one_div index
      omega
    rw [upper] at path root
    constructor
    · rw [whole, siblingPath, readAt_cell (by omega), readAt_cell (by omega),
        path, holds.1 _ sibling]
      rfl
    · grind [rootStart]

theorem memtreeProof_hashed (total : memtree.length = (levelCounts binary (2 ^ height)).sum)
    (kept : ∀ j < 2 ^ height, cell memtree j = leaf j)
    (hashed : Hashed ext memtree (layout 0 (levelCounts binary (2 ^ height))))
    (inside : index < 2 ^ height) :
    memtreeProof memtree index = .ok ⟨leaf index, siblings (node ext.parent leaf) 0 index height,
      node ext.parent leaf height 0⟩ := by
  have positive := Nat.two_pow_pos height
  have sum := levelCounts_sum_two_pow height
  have count : (memtree.length + 1) / 2 = 2 ^ height := by
    omega
  have first : ∀ i < 2 ^ height, cell memtree (0 + i) = node ext.parent leaf 0 i := by
    intro i bound
    rw [zero_add, kept i bound]
    rfl
  obtain ⟨path, root⟩ := holds_path (holds_of_hashed hashed first) (by omega) inside
  simp only [memtreeProof, count]
  rw [if_neg (by omega), if_neg (by omega), if_neg (by omega), Int.toNat_natCast,
    readAt_cell (by rw [pow_succ] at sum; omega), path,
    readAt_cell (rootStart_lt positive (by omega)), kept _ inside, root, zero_add]
  rfl

theorem memtreeProof_tree (length : leaves.length = 2 ^ height)
    (built : hashLeaves ext leaves.length leaves = .ok memtree) (inside : index < 2 ^ height) :
    memtreeProof memtree index = .ok ⟨cell leaves index,
      siblings (node ext.parent (cell leaves)) 0 index height,
      node ext.parent (cell leaves) height 0⟩ := by
  obtain ⟨total, kept, hashed⟩ := built_spec built (ne_nil_of_length_pos (by omega))
  rw [length] at total kept hashed
  exact memtreeProof_hashed total kept hashed inside

variable (ext) in
theorem hashLeaves_proves (length : leaves.length = 2 ^ height) (inside : index < 2 ^ height) :
    ∃ memtree, hashLeaves ext (2 ^ height) leaves = .ok memtree ∧
      memtreeProof memtree index = .ok ⟨cell leaves index,
        siblings (node ext.parent (cell leaves)) 0 index height,
        node ext.parent (cell leaves) height 0⟩ := by
  obtain ⟨memtree, built, _⟩ :=
    hashLeaves_spec ext (ne_nil_of_length_pos (length ▸ Nat.two_pow_pos height))
  exact ⟨memtree, length ▸ built, memtreeProof_tree length built inside⟩

end Curio.Proof
