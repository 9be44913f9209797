import Curio.BinaryMerkle

/-! Trees over a row of blocks.

A block is a full subtree known only by its height and root. Blocks stand next to each
other in order of non-increasing height, and zeros fill the tree behind them. -/

namespace BlockTree

open BinaryMerkle List

structure Block (H : Type*) where
  height : Nat
  root : H

variable {H : Type*} {position : Nat} {front : List (Block H)}

def Block.width (block : Block H) : Nat := 2 ^ block.height

def total (blocks : List (Block H)) : Nat := (blocks.map Block.width).sum

def place : Nat → List (Block H) → List (Nat × Block H)
  | _, [] => []
  | start, block :: rest => (start, block) :: place (start + block.width) rest

def Descending (blocks : List (Block H)) : Prop :=
  blocks.Pairwise (fun first second => second.height ≤ first.height)

section Trees

variable (hash : H → H → H) (zero : H)

def zeroRoot : Nat → H
  | 0 => zero
  | height + 1 => hash (zeroRoot height) (zeroRoot height)

/-- Fill a tree of a given height from the left with the blocks in order; once they are used
up, zeros follow. The blocks that did not fit are handed on. -/
def fill : Nat → List (Block H) → H × List (Block H)
  | height, [] => (zeroRoot hash zero height, [])
  | 0, block :: rest => (block.root, rest)
  | height + 1, block :: rest =>
    if block.height = height + 1 then (block.root, rest)
    else
      let left := fill height (block :: rest)
      let right := fill height left.2
      (hash left.1 right.1, right.2)

/-- The root of the tree of a given height over the blocks, padded on the right with zeros. -/
def rootOver (height : Nat) (blocks : List (Block H)) : H := (fill hash zero height blocks).1

def blockAt (placed : List (Nat × Block H)) (height position : Nat) : Option H :=
  (placed.find? (fun entry => entry.1 == position && entry.2.height == height)).map
    (fun entry => entry.2.root)

/-- Node function of the padded tree, for nodes that are not strictly inside a block. -/
def value (placed : List (Nat × Block H)) : Nat → Nat → H
  | 0, index => (blockAt placed 0 index).getD zero
  | height + 1, index =>
    (blockAt placed (height + 1) (index * 2 ^ (height + 1))).getD
      (hash (value placed height (2 * index)) (value placed height (2 * index + 1)))

end Trees

theorem width_pos (block : Block H) : 0 < block.width := Nat.two_pow_pos block.height

theorem total_cons (block : Block H) (rest : List (Block H)) :
    total (block :: rest) = block.width + total rest := by
  simp [total]

section Layout

variable {start : Nat} {blocks : List (Block H)}
variable {entry : Nat × Block H}

section

variable (member : entry ∈ place start blocks)
include member

theorem place_start_le : start ≤ entry.1 := by
  induction blocks generalizing start with
  | nil => cases member
  | cons block rest ih =>
    rcases mem_cons.mp member with rfl | later
    all_goals grind

theorem place_end_le : entry.1 + entry.2.width ≤ start + total blocks := by
  induction blocks generalizing start with
  | nil => cases member
  | cons block rest ih =>
    rw [total_cons]
    rcases mem_cons.mp member with rfl | later
    all_goals grind

end

theorem place_unique {first second : Nat × Block H} {position : Nat}
    (firstMember : first ∈ place start blocks) (secondMember : second ∈ place start blocks)
    (firstLow : first.1 ≤ position) (firstHigh : position < first.1 + first.2.width)
    (secondLow : second.1 ≤ position) (secondHigh : position < second.1 + second.2.width) :
    first = second := by
  induction blocks generalizing start with
  | nil => cases firstMember
  | cons block rest ih =>
    rcases mem_cons.mp firstMember with rfl | firstLater
    · rcases mem_cons.mp secondMember with rfl | secondLater
      · rfl
      · have bound := place_start_le secondLater
        simp only at firstHigh
        omega
    · rcases mem_cons.mp secondMember with rfl | secondLater
      · have bound := place_start_le firstLater
        simp only at secondHigh
        omega
      · exact ih firstLater secondLater

theorem place_cover (low : start ≤ position) (high : position < start + total blocks) :
    ∃ entry ∈ place start blocks, entry.1 ≤ position ∧ position < entry.1 + entry.2.width := by
  induction blocks generalizing start with
  | nil => simp [total] at high; omega
  | cons block rest ih =>
    rw [total_cons] at high
    by_cases inside : position < start + block.width
    · exact ⟨(start, block), mem_cons_self, low, inside⟩
    · obtain ⟨entry, member, covers⟩ := ih (by omega : start + block.width ≤ position) (by omega)
      exact ⟨entry, mem_cons_of_mem _ member, covers⟩

theorem total_append (front back : List (Block H)) :
    total (front ++ back) = total front + total back := by
  simp [total]

theorem place_append (front back : List (Block H)) :
    place start (front ++ back) = place start front ++ place (start + total front) back := by
  induction front generalizing start with
  | nil => simp [place, total]
  | cons block rest ih =>
    simp only [cons_append, place, total_cons]
    rw [ih, add_assoc]

theorem place_mem (member : entry ∈ place start blocks) : entry.2 ∈ blocks := by
  induction blocks generalizing start with
  | nil => cases member
  | cons block rest ih =>
    rcases mem_cons.mp member with rfl | later
    all_goals grind

/-- Non-increasing blocks from an aligned start are aligned to their own width. -/
theorem place_aligned (descending : Descending blocks)
    (aligned : ∀ block ∈ blocks, block.width ∣ start) (member : entry ∈ place start blocks) :
    entry.2.width ∣ entry.1 := by
  induction blocks generalizing start with
  | nil => cases member
  | cons block rest ih =>
    obtain ⟨head, tail⟩ := pairwise_cons.mp descending
    rcases mem_cons.mp member with rfl | later
    · exact aligned _ mem_cons_self
    · refine ih tail (fun next inside => ?_) later
      have narrower : next.width ∣ block.width := pow_dvd_pow 2 (head next inside)
      exact Dvd.dvd.add (aligned next (mem_cons_of_mem _ inside)) narrower

end Layout

variable {blocks : List (Block H)} (descending : Descending blocks)
include descending

variable {block : Block H} {height index : Nat}

theorem aligned_from_zero {entry : Nat × Block H} (member : entry ∈ place 0 blocks) :
    2 ^ entry.2.height ∣ entry.1 :=
  place_aligned descending (fun _ _ => dvd_zero _) member

/-- Next to a block of height at most `height`, inside the same parent node, every node of that
height that still holds data starts with a block of its own. -/
theorem same_parent_start {target : Nat} (member : (position, block) ∈ place 0 blocks)
    (small : block.height ≤ height) (aligned : 2 ^ height ∣ target) (inside : target < total blocks)
    (sameParent : target / 2 ^ (height + 1) = position / 2 ^ (height + 1)) :
    ∃ other : Block H, (target, other) ∈ place 0 blocks ∧ other.height ≤ height := by
  obtain ⟨⟨other, found⟩, otherMember, low, high⟩ :=
    place_cover (Nat.zero_le target) (by omega : target < 0 + total blocks)
  have otherAligned := aligned_from_zero descending otherMember
  simp only at low high otherAligned
  have fits : found.height ≤ height := by
    by_contra larger
    -- A block above the parent's height that holds `target` also holds `position`.
    obtain ⟨extra, grown⟩ := Nat.exists_eq_add_of_lt (Nat.lt_of_not_le larger)
    have width : 2 ^ found.height = 2 ^ (height + 1) * 2 ^ extra := by
      rw [← pow_add]
      congr 1
      omega
    obtain ⟨slot, start⟩ := otherAligned
    have targetSlot : target / 2 ^ found.height = slot := by
      rw [start] at low high
      exact Nat.div_eq_of_lt_le (by rwa [mul_comm])
        (by rwa [Nat.add_mul, Nat.one_mul, mul_comm slot])
    have positionSlot : position / 2 ^ found.height = slot := by
      rw [width, ← Nat.div_div_eq_div_mul, ← sameParent, Nat.div_div_eq_div_mul, ← width, targetSlot]
    have positionLow : other ≤ position := by
      rw [start, ← positionSlot]
      exact Nat.mul_div_le position _
    have positionHigh : position < other + found.width := by
      have bound := Nat.lt_mul_div_succ position (Nat.two_pow_pos found.height)
      rw [positionSlot, Nat.mul_add, mul_one, ← start] at bound
      exact bound
    have same := place_unique otherMember member positionLow positionHigh (le_refl _)
      (by have := width_pos block; simp only; omega)
    cases same
    omega
  have dvd : 2 ^ found.height ∣ target := dvd_trans (pow_dvd_pow 2 fits) aligned
  have start : other = target := by
    obtain ⟨slot, rfl⟩ := dvd
    obtain ⟨first, rfl⟩ := otherAligned
    have bound : slot < first + 1 := by
      have shape : 2 ^ found.height * slot < 2 ^ found.height * (first + 1) := by
        simpa [Block.width, Nat.mul_add] using high
      exact Nat.lt_of_mul_lt_mul_left shape
    have order : first ≤ slot := Nat.le_of_mul_le_mul_left low (Nat.two_pow_pos _)
    have equal : first = slot := by omega
    rw [equal]
  subst start
  exact ⟨found, otherMember, fits⟩

omit descending in
theorem blockAt_eq_some {root : H} :
    blockAt (place 0 blocks) height position = some root ↔
      ∃ block : Block H, (position, block) ∈ place 0 blocks ∧ block.height = height ∧
        block.root = root := by
  unfold blockAt
  constructor
  · intro found
    rw [Option.map_eq_some_iff] at found
    grind
  · rintro ⟨block, member, rfl, rfl⟩
    have located : ((place 0 blocks).find?
        (fun entry => entry.1 == position && entry.2.height == block.height)).isSome := by
      grind
    obtain ⟨⟨at', other⟩, located⟩ := Option.isSome_iff_exists.mp located
    have otherMember := mem_of_find?_eq_some located
    have named := find?_some located
    simp only [Bool.and_eq_true, beq_iff_eq] at named
    obtain ⟨rfl, sameHeight⟩ := named
    have same := place_unique otherMember member (le_refl _)
      (by have := width_pos other; simp only; omega) (le_refl _)
      (by have := width_pos block; simp only; omega)
    cases same
    rw [located]
    rfl

variable (hash : H → H → H) (zero : H)

theorem value_block (member : (position, block) ∈ place 0 blocks) :
    value hash zero (place 0 blocks) block.height (position / 2 ^ block.height) = block.root := by
  have aligned := aligned_from_zero descending member
  have start : position / 2 ^ block.height * 2 ^ block.height = position :=
    Nat.div_mul_cancel aligned
  have pinned : blockAt (place 0 blocks) block.height position = some block.root :=
    blockAt_eq_some.mpr ⟨block, member, rfl, rfl⟩
  cases shape : block.height with
  | zero =>
    rw [shape] at pinned
    simp [value, pinned]
  | succ height =>
    rw [shape] at pinned start
    simp only [value]
    rw [start, pinned]
    rfl

omit descending in
theorem value_parent (member : (index * 2 ^ (height + 1), block) ∈ place 0 blocks)
    (small : block.height ≤ height) :
    value hash zero (place 0 blocks) (height + 1) index =
      hash (value hash zero (place 0 blocks) height (2 * index))
        (value hash zero (place 0 blocks) height (2 * index + 1)) := by
  have free : blockAt (place 0 blocks) (height + 1) (index * 2 ^ (height + 1)) = none := by
    rw [Option.eq_none_iff_forall_ne_some]
    intro root pinned
    obtain ⟨other, otherMember, otherHeight, _⟩ := blockAt_eq_some.mp pinned
    have same := place_unique otherMember member (le_refl _)
      (by have := width_pos other; simp only; omega) (le_refl _)
      (by have := width_pos block; simp only; omega)
    cases same
    omega
  simp only [value, free, Option.getD_none]

omit descending in
theorem blockAt_beyond (beyond : total blocks ≤ position) :
    blockAt (place 0 blocks) height position = none := by
  unfold blockAt
  rw [Option.map_eq_none_iff, find?_eq_none]
  intro entry member named
  simp only [Bool.and_eq_true, beq_iff_eq] at named
  have bound := place_end_le member
  have positive := width_pos entry.2
  omega

omit descending in
theorem value_beyond (beyond : total blocks ≤ index * 2 ^ height) :
    value hash zero (place 0 blocks) height index = zeroRoot hash zero height := by
  induction height generalizing index with
  | zero =>
    rw [pow_zero, mul_one] at beyond
    simp [value, zeroRoot, blockAt_beyond beyond]
  | succ height ih =>
    have left : total blocks ≤ 2 * index * 2 ^ height := by
      grind
    have right : total blocks ≤ (2 * index + 1) * 2 ^ height :=
      Nat.le_trans left (Nat.mul_le_mul_right _ (Nat.le_succ _))
    simp only [value, blockAt_beyond beyond, Option.getD_none, zeroRoot, ih left, ih right]

/-- The blocks left over stand at a position, or none are left and it lies behind them all. -/
def StandsAt (front rest : List (Block H)) (position : Nat) : Prop :=
  total front ≤ position ∧ (rest ≠ [] → total front = position)

omit descending in
/-- What filling a node promises: its value, and the blocks that stand at the next node. -/
def FillsNode (blocks front rest : List (Block H)) (height index : Nat)
    (filled : H × List (Block H)) : Prop :=
  filled.1 = value hash zero (place 0 blocks) height index ∧
    ∃ used, rest = used ++ filled.2 ∧ StandsAt (front ++ used) filled.2 ((index + 1) * 2 ^ height)

omit descending in
theorem fill_behind (split : blocks = front ++ [])
    (stands : StandsAt front ([] : List (Block H)) (index * 2 ^ height)) :
    FillsNode hash zero blocks front [] height index (zeroRoot hash zero height, []) := by
  have beyond : total blocks ≤ index * 2 ^ height := by
    rw [split, append_nil]
    exact stands.1
  refine ⟨(value_beyond hash zero beyond).symm, [], rfl, ?_, fun present => absurd rfl present⟩
  grind

theorem fill_whole {rest : List (Block H)} (split : blocks = front ++ block :: rest)
    (stands : StandsAt front (block :: rest) (index * 2 ^ height)) (whole : block.height = height) :
    FillsNode hash zero blocks front (block :: rest) height index (block.root, rest) := by
  have start := stands.2 (by simp)
  have member : (index * 2 ^ height, block) ∈ place 0 blocks := by
    rw [split, place_append, ← start, zero_add]
    exact mem_append_right _ mem_cons_self
  have pinned := value_block descending hash zero member
  rw [whole, Nat.mul_div_cancel _ (Nat.two_pow_pos _)] at pinned
  have ends : total (front ++ [block]) = (index + 1) * 2 ^ height := by
    rw [total_append, start, Nat.add_mul, ← whole]
    simp [total, Block.width]
  exact ⟨pinned.symm, [block], rfl, le_of_eq ends, fun _ => ends⟩

/-- Filling from the blocks that stand at a node gives the node's value and the blocks that
stand at the next node of the same height. -/
theorem fill_value (height index : Nat) (front rest : List (Block H))
    (split : blocks = front ++ rest) (stands : StandsAt front rest (index * 2 ^ height))
    (small : ∀ block ∈ rest, block.height ≤ height) :
    FillsNode hash zero blocks front rest height index (fill hash zero height rest) := by
  induction height generalizing index front rest with
  | zero =>
    cases rest with
    | nil => exact fill_behind hash zero split stands
    | cons block rest =>
      exact fill_whole descending hash zero split stands
        (Nat.le_zero.mp (small block mem_cons_self))
  | succ height ih =>
    cases rest with
    | nil => exact fill_behind hash zero split stands
    | cons block rest =>
      by_cases whole : block.height = height + 1
      · rw [fill, if_pos whole]
        exact fill_whole descending hash zero split stands whole
      · have blockSmall : block.height ≤ height := by
          grind
        have tailSmall : ∀ next ∈ block :: rest, next.height ≤ height := by
          have order : Descending (block :: rest) := by
            rw [split] at descending
            exact (pairwise_append.mp descending).2.1
          intro next inside
          rcases mem_cons.mp inside with rfl | later
          · exact blockSmall
          · exact Nat.le_trans ((pairwise_cons.mp order).1 next later) blockSmall
        have member : (index * 2 ^ (height + 1), block) ∈ place 0 blocks := by
          rw [split, place_append, ← stands.2 (by simp), zero_add]
          exact mem_append_right _ mem_cons_self
        have leftStands : StandsAt front (block :: rest) (2 * index * 2 ^ height) := by
          grind
        obtain ⟨leftValue, leftUsed, leftSplit, leftRest⟩ :=
          ih (2 * index) front (block :: rest) split leftStands tailSmall
        obtain ⟨rightValue, rightUsed, rightSplit, rightRest⟩ :=
          ih (2 * index + 1) (front ++ leftUsed) (fill hash zero height (block :: rest)).2
            (by rw [append_assoc, ← leftSplit, split]) leftRest (fun next inside =>
              tailSmall next (by rw [leftSplit]; exact mem_append_right _ inside))
        rw [fill, if_neg whole]
        dsimp only
        refine ⟨?_, leftUsed ++ rightUsed, ?_, ?_⟩
        · rw [leftValue, rightValue, value_parent hash zero member blockSmall]
        all_goals grind

/-- The padded tree filled from the left is the tree the node function describes. -/
theorem rootOver_eq_value (height : Nat) (small : ∀ block ∈ blocks, block.height ≤ height) :
    rootOver hash zero height blocks = value hash zero (place 0 blocks) height 0 := by
  have stands : StandsAt ([] : List (Block H)) blocks (0 * 2 ^ height) := by
    simp [StandsAt, total]
  exact (fill_value descending hash zero height 0 [] blocks rfl stands small).1

end BlockTree
