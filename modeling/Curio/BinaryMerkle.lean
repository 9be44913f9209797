import Mathlib.Data.Nat.Bitwise
import Mathlib.Tactic

/-! Binary Merkle trees over an arbitrary pair hash.

A tree is read through its node function: the value at a level and an index, leaves
at level zero. Nothing here assumes that the hash is injective. -/

namespace BinaryMerkle

open List

variable {H : Type*} (hash : H → H → H) {index position : Nat} {value value' : H}

/-- The node at a level and an index of the tree over an unbounded row of leaves. -/
def node (leaf : Nat → H) : Nat → Nat → H
  | 0, index => leaf index
  | level + 1, index => hash (node leaf level (2 * index)) (node leaf level (2 * index + 1))

/-- Hash a value upward: the parity of the position says on which side the sibling stands. -/
def climb : Nat → H → List H → H
  | _, value, [] => value
  | position, value, sibling :: rest =>
    climb (position / 2) (if position % 2 = 0 then hash value sibling else hash sibling value) rest

/-- The siblings met on the way up from an index, read from a node function. -/
def siblings (value : Nat → Nat → H) : Nat → Nat → Nat → List H
  | _, _, 0 => []
  | level, index, count + 1 =>
    value level (index ^^^ 1) :: siblings value (level + 1) (index / 2) count

theorem xor_one_even (even : index % 2 = 0) : index ^^^ 1 = 2 * (index / 2) + 1 := by
  rw [Nat.xor_one_of_even (Nat.even_iff.mpr even)]
  omega

theorem xor_one_odd (odd : index % 2 = 1) : index ^^^ 1 = 2 * (index / 2) := by
  rw [Nat.xor_one_of_odd (Nat.odd_iff.mpr odd)]
  omega

theorem xor_one_add_even (half index : Nat) :
    (2 * half + index) ^^^ 1 = 2 * half + (index ^^^ 1) := by
  rcases Nat.mod_two_eq_zero_or_one index with even | odd
  · rw [xor_one_even even, xor_one_even (by omega)]
    omega
  · rw [xor_one_odd odd, xor_one_odd (by omega)]
    omega

theorem xor_one_div (index : Nat) : (index ^^^ 1) / 2 = index / 2 := by
  rcases Nat.mod_two_eq_zero_or_one index with even | odd
  · rw [xor_one_even even]
    omega
  · rw [xor_one_odd odd]
    omega

theorem xor_one_lt {half : Nat} (inside : index < 2 * half) : index ^^^ 1 < 2 * half := by
  have same := xor_one_div index
  omega

theorem climb_append (position : Nat) (value : H) (front back : List H) :
    climb hash position value (front ++ back) =
      climb hash (position / 2 ^ front.length) (climb hash position value front) back := by
  induction front generalizing position value with
  | nil => simp [climb]
  | cons sibling rest ih =>
    simp only [cons_append, climb, length_cons]
    rw [ih, Nat.div_div_eq_div_mul, pow_succ, mul_comm 2]

theorem climb_position_congr (path : List H) (first second : Nat) (value : H)
    (same : first % 2 ^ path.length = second % 2 ^ path.length) :
    climb hash first value path = climb hash second value path := by
  induction path generalizing first second value with
  | nil => rfl
  | cons sibling rest ih =>
    simp only [length_cons, pow_succ] at same
    have parity : first % 2 = second % 2 := by
      have reduced := congrArg (· % 2) same
      simpa [Nat.mod_mul_left_mod] using reduced
    have upper : first / 2 % 2 ^ rest.length = second / 2 % 2 ^ rest.length := by
      have halved := congrArg (· / 2) same
      simpa [Nat.mod_mul_left_div_self] using halved
    simp only [climb, parity]
    exact ih _ _ _ upper

@[simp] theorem siblings_length (value : Nat → Nat → H) (level index count : Nat) :
    (siblings value level index count).length = count := by
  induction count generalizing level index with
  | zero => rfl
  | succ count ih => simp [siblings, ih]

theorem siblings_add (value : Nat → Nat → H) (level index first second : Nat) :
    siblings value level index (first + second) =
      siblings value level index first ++
        siblings value (level + first) (index / 2 ^ first) second := by
  induction first generalizing level index with
  | zero => simp [siblings]
  | succ first ih =>
    rw [Nat.succ_add]
    simp only [siblings, cons_append]
    rw [ih, Nat.div_div_eq_div_mul, pow_succ, mul_comm 2, add_right_comm, add_assoc level first 1]

theorem siblings_succ (value : Nat → Nat → H) (level index count : Nat) :
    siblings value level index (count + 1) =
      siblings value level index count ++ [value (level + count) ((index / 2 ^ count) ^^^ 1)] := by
  rw [siblings_add]
  rfl

theorem siblings_congr (left right : Nat → Nat → H) (base lifted index shifted count : Nat)
    (agree : ∀ step, step < count →
      left (base + step) ((index / 2 ^ step) ^^^ 1) =
        right (lifted + step) ((shifted / 2 ^ step) ^^^ 1)) :
    siblings left base index count = siblings right lifted shifted count := by
  induction count with
  | zero => rfl
  | succ count ih => grind [siblings_succ]

/-- Climbing from a node along its siblings arrives at its ancestor, as soon as the parent
equations hold on that path. -/
theorem climb_siblings (value : Nat → Nat → H) (level index count : Nat)
    (parents : ∀ step, step < count →
      value (level + step + 1) (index / 2 ^ (step + 1)) =
        hash (value (level + step) (2 * (index / 2 ^ (step + 1))))
          (value (level + step) (2 * (index / 2 ^ (step + 1)) + 1))) :
    climb hash index (value level index) (siblings value level index count) =
      value (level + count) (index / 2 ^ count) := by
  induction count with
  | zero => simp [siblings, climb]
  | succ count ih =>
    rw [siblings_succ, climb_append, ih (fun step bound => parents step (Nat.lt_succ_of_lt bound)),
      siblings_length]
    have parent := parents count (Nat.lt_succ_self count)
    have halved : index / 2 ^ (count + 1) = index / 2 ^ count / 2 := by
      rw [pow_succ, Nat.div_div_eq_div_mul]
    rw [halved] at parent ⊢
    rw [← add_assoc, parent]
    simp only [climb]
    rcases Nat.mod_two_eq_zero_or_one (index / 2 ^ count) with even | odd
    · rw [if_pos even, xor_one_even even]
      congr 2
      omega
    · rw [if_neg (by omega), xor_one_odd odd]
      congr 2
      omega

section

variable (leaf : Nat → H)
include leaf

theorem climb_node (index count : Nat) :
    climb hash index (leaf index) (siblings (node hash leaf) 0 index count) =
      node hash leaf count (index / 2 ^ count) := by
  have climbed := climb_siblings hash (node hash leaf) 0 index count (fun step _ => by
    rfl)
  simpa [node] using climbed

theorem node_node (base level index : Nat) :
    node hash (node hash leaf base) level index = node hash leaf (base + level) index := by
  induction level generalizing index with
  | zero => rfl
  | succ level ih =>
    rw [← add_assoc]
    simp only [node, ih]

theorem siblings_node (base index count : Nat) :
    siblings (node hash (node hash leaf base)) 0 index count =
      siblings (node hash leaf) base index count := by
  apply siblings_congr
  intro step _
  rw [node_node, zero_add]

end

theorem node_congr (left right : Nat → H) (level index : Nat)
    (agree : ∀ i, index * 2 ^ level ≤ i → i < (index + 1) * 2 ^ level → left i = right i) :
    node hash left level index = node hash right level index := by
  induction level generalizing index with
  | zero => exact agree index (by simp) (by simp)
  | succ level ih =>
    simp only [node]
    have lower : (2 * index) * 2 ^ level = index * 2 ^ (level + 1) := by
      rw [pow_succ]; ring
    grind

theorem node_shift (leaf : Nat → H) (width start level index : Nat) (inside : level ≤ width) :
    node hash (fun i => leaf (start * 2 ^ width + i)) level index =
      node hash leaf level (start * 2 ^ (width - level) + index) := by
  induction level generalizing index with
  | zero => rfl
  | succ level ih =>
    have doubled : start * 2 ^ (width - level) = 2 * (start * 2 ^ (width - (level + 1))) := by
      have split : width - level = width - (level + 1) + 1 := by omega
      rw [split]
      ring
    simp only [node]
    grind

section Subtree

variable {leaf part : Nat → H} {width start : Nat}
  (same : ∀ i < 2 ^ width, part i = leaf (start * 2 ^ width + i))
include same

theorem node_subtree {level : Nat} (below : level ≤ width) (inside : index < 2 ^ (width - level)) :
    node hash part level index = node hash leaf level (start * 2 ^ (width - level) + index) := by
  rw [← node_shift hash leaf width start level index below]
  apply node_congr
  intro i _ high
  apply same
  calc
    i < (index + 1) * 2 ^ level := high
    _ ≤ 2 ^ (width - level) * 2 ^ level := Nat.mul_le_mul_right _ inside
    _ = 2 ^ width := by rw [← Nat.pow_add, Nat.sub_add_cancel below]

theorem siblings_subtree (inside : index < 2 ^ width) :
    siblings (node hash part) 0 index width =
      siblings (node hash leaf) 0 (start * 2 ^ width + index) width := by
  apply siblings_congr
  intro step below
  obtain ⟨rest, remaining⟩ := Nat.exists_eq_add_of_lt below
  have upper : width - step = rest + 1 := by omega
  have whole : 2 ^ width = 2 ^ step * (2 * 2 ^ rest) := by
    rw [remaining]
    ring
  have split : (start * 2 ^ width + index) / 2 ^ step =
      2 * (start * 2 ^ rest) + index / 2 ^ step := by
    rw [whole, mul_left_comm, Nat.mul_add_div (Nat.two_pow_pos step), mul_left_comm]
  have bound : index / 2 ^ step ^^^ 1 < 2 ^ (width - step) := by
    rw [upper, pow_succ, mul_comm]
    apply xor_one_lt
    rw [whole] at inside
    exact Nat.div_lt_of_lt_mul inside
  rw [zero_add, split, node_subtree hash same (le_of_lt below) bound, upper, pow_succ,
    mul_comm (2 ^ rest), mul_left_comm, xor_one_add_even]

end Subtree

def ordered (position : Nat) (value sibling : H) : H × H :=
  if position % 2 = 0 then (value, sibling) else (sibling, value)

theorem climb_cons (position : Nat) (value sibling : H) (rest : List H) :
    climb hash position value (sibling :: rest) = climb hash (position / 2)
      (hash (ordered position value sibling).1 (ordered position value sibling).2) rest := by
  rw [climb, ordered]
  split <;> rfl

theorem ordered_inj {sibling sibling' : H}
    (same : ordered position value sibling = ordered position value' sibling') :
    value = value' ∧ sibling = sibling' := by
  unfold ordered at same
  split at same
  · exact Prod.mk.inj same
  · exact (Prod.mk.inj same).symm

/-- The first two different pairs with one hash that two climbs of a position meet. -/
def collision [DecidableEq H] : Nat → H → List H → H → List H → Option ((H × H) × (H × H))
  | position, value, sibling :: rest, value', sibling' :: rest' =>
    let pair := ordered position value sibling
    let pair' := ordered position value' sibling'
    if pair ≠ pair' ∧ hash pair.1 pair.2 = hash pair'.1 pair'.2 then some (pair, pair')
    else collision (position / 2) (hash pair.1 pair.2) rest (hash pair'.1 pair'.2) rest'
  | _, _, _, _, _ => none

/-- Two climbs to one root start alike, or show a collision. -/
theorem climb_binding [DecidableEq H] {path path' : List H} (length : path.length = path'.length)
    (same : climb hash position value path = climb hash position value' path') :
    (value = value' ∧ path = path') ∨ ∃ pair pair', pair ≠ pair' ∧
      hash pair.1 pair.2 = hash pair'.1 pair'.2 ∧
      collision hash position value path value' path' = some (pair, pair') := by
  induction path generalizing path' position value value' with
  | nil =>
    obtain rfl := length_eq_zero_iff.mp length.symm
    exact .inl ⟨same, rfl⟩
  | cons sibling rest ih =>
    obtain ⟨sibling', rest', rfl⟩ := exists_cons_of_length_eq_add_one length.symm
    rw [climb_cons, climb_cons] at same
    rw [collision]
    split
    case isTrue collides => exact .inr ⟨_, _, collides.1, collides.2, rfl⟩
    case isFalse apart =>
      refine (ih (Nat.succ.inj length) same).imp_left fun ⟨hashes, rests⟩ => ?_
      obtain ⟨values, siblings⟩ := ordered_inj (not_not.mp fun differ => apart ⟨differ, hashes⟩)
      exact ⟨values, by rw [siblings, rests]⟩

def levels (leaf : Nat → H) (height : Nat) : List (List H) :=
  (range (height + 1)).map (fun level =>
    (range (2 ^ (height - level))).map (node hash leaf level))

@[simp] theorem levels_length (leaf : Nat → H) (height : Nat) :
    (levels hash leaf height).length = height + 1 := by
  simp [levels]

theorem levels_congr {left right : Nat → H} {height : Nat}
    (agree : ∀ i < 2 ^ height, left i = right i) :
    levels hash left height = levels hash right height := by
  apply map_congr_left
  intro level inside
  apply map_congr_left
  intro index within
  rw [mem_range] at inside within
  apply node_congr
  intro i _ high
  apply agree
  calc
    i < (index + 1) * 2 ^ level := high
    _ ≤ 2 ^ (height - level) * 2 ^ level := Nat.mul_le_mul_right _ within
    _ = 2 ^ height := by rw [← Nat.pow_add, Nat.sub_add_cancel (Nat.le_of_lt_succ inside)]

end BinaryMerkle
