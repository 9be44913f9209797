import Curio.Proof.Memtree

/-! `hashChunk` of `lib/proof/treed_build.go`: all levels of a binary tree in one pass over its
leaves. Each pair of leaves is hashed together with the parents it completes. -/

namespace Curio.Proof

open GoRuntime BinaryMerkle List

def hashPair (ext : Externals) (data : List (List Node)) (l inNode outNode : Nat) :
    Go (List (List Node)) := do
  let below ← readAt data l
  let left ← readAt below inNode
  let right ← readAt below (inNode + 1)
  let above ← readAt data (l + 1)
  let above ← writeAt above outNode (ext.parent left right)
  writeAt data (l + 1) above

/-- One pass of the inner loop over the buffers, `inNode` and `outNode`. An `inNode` below zero
would be out of bounds. -/
def hashParent (ext : Externals) (state : List (List Node) × Int × Nat) (l : Nat) :
    Go (List (List Node) × Int × Nat) :=
  let (data, inNode, outNode) := state
  if inNode < 0 then panics "slice bounds out of range"
  else do
    let data ← hashPair ext data l inNode.toNat outNode
    .ok (data, (inNode - 1) >>> (1 : Nat), outNode >>> 1)

def hashUp (ext : Externals) (data : List (List Node)) (i : Nat) : Go (List (List Node)) := do
  let levels := trailingZeros (complement i) + 1
  let (data, _, _) ← forRange levels (hashParent ext) (data, 2 * (i : Int), i)
  .ok data

def hashChunk (ext : Externals) (data : List (List Node)) : Go (List (List Node)) := do
  let bottom ← readAt data 0
  let l1Nodes := bottom.length / 2
  forRange l1Nodes (hashUp ext) data

structure Stacked (height : Nat) (data : List (List Node)) : Prop where
  rows : data.length = height + 1
  widths : ∀ level ≤ height, (cell data level).length = 2 ^ (height - level)

/-- The bottom row stays as it is, and level `l + 1` holds its first `finished l` nodes. -/
structure Hashing (ext : Externals) (leaf : Nat → Node) (height : Nat) (finished : Nat → Nat)
    (data : List (List Node)) : Prop extends Stacked height data where
  leaves : ∀ i, cell (cell data 0) i = leaf i
  nodes : ∀ level < height, ∀ i < finished level,
    cell (cell data (level + 1)) i = node ext.parent leaf (level + 1) i

variable {ext : Externals} {leaf : Nat → Node} {height : Nat} {level i l : Nat}

variable {data : List (List Node)} {finished : Nat → Nat}

section

variable (hashing : Hashing ext leaf height finished data)
include hashing

theorem Hashing.mono {less : Nat → Nat} (fewer : ∀ level < height, less level ≤ finished level) :
    Hashing ext leaf height less data := by
  refine ⟨hashing.toStacked, hashing.leaves, ?_⟩
  intro level below i inside
  exact hashing.nodes level below i (lt_of_lt_of_le inside (fewer level below))

theorem Hashing.row (below : level ≤ height)
    (inside : ∀ lower, level = lower + 1 → i < finished lower) :
    cell (cell data level) i = node ext.parent leaf level i := by
  cases level with
  | zero => exact hashing.leaves i
  | succ lower => exact hashing.nodes lower below i (inside lower rfl)

theorem hashPair_spec {q : Nat} (below : l < height) (next : finished l = q)
    (inside : q < 2 ^ (height - (l + 1)))
    (children : ∀ lower, l = lower + 1 → 2 * q + 1 < finished lower) :
    ∃ hashed, hashPair ext data l (2 * q) q = .ok hashed ∧
      Hashing ext leaf height (fun level => if level = l then q + 1 else finished level) hashed := by
  have width : 2 ^ (height - l) = 2 * 2 ^ (height - (l + 1)) := by
    rw [show height - l = height - (l + 1) + 1 by omega, Nat.pow_succ, mul_comm]
  have rows := hashing.rows
  have lower := hashing.widths l (le_of_lt below)
  have upper := hashing.widths (l + 1) below
  have left := hashing.row (le_of_lt below) (i := 2 * q)
    (fun level same => Nat.lt_of_succ_lt (children level same))
  have right := hashing.row (le_of_lt below) children
  have parent : ext.parent (cell (cell data l) (2 * q)) (cell (cell data l) (2 * q + 1)) =
      node ext.parent leaf (l + 1) q := by
    rw [left, right, node]
  refine ⟨data.set (l + 1) ((cell data (l + 1)).set q (node ext.parent leaf (l + 1) q)), ?_, ?_⟩
  · rw [hashPair, readAt_cell (by omega), ok_bind, readAt_cell (by omega), ok_bind,
      readAt_cell (by omega), ok_bind, readAt_cell (by omega), ok_bind, parent,
      writeAt_of_lt _ (by omega), ok_bind, writeAt_of_lt _ (by omega)]
  · refine ⟨⟨by rw [length_set, rows], ?_⟩, ?_, ?_⟩
    · intro level inner
      by_cases here : level = l + 1
      · subst here
        rw [cell_set_same _ (by omega), length_set, upper]
      · rw [cell_set_other _ here, hashing.widths level inner]
    · intro i
      rw [cell_set_other _ (by omega), hashing.leaves]
    · intro level inner i done
      by_cases here : level = l
      · subst here
        rw [cell_set_same _ (by omega)]
        rw [if_pos rfl] at done
        rcases Nat.lt_succ_iff_lt_or_eq.mp done with earlier | rfl
        · rw [cell_set_other _ (by omega), hashing.nodes level inner i (by omega)]
        · rw [cell_set_same _ (by omega)]
      · rw [if_neg here] at done
        rw [cell_set_other _ (by omega), hashing.nodes level inner i done]

end

/-- The nodes of level `l + 1` that the first pairs of leaves complete, with the parents of pair
`i` hashed up to level `passes`. -/
def completed (i passes level : Nat) : Nat := (if level < passes then i + 1 else i) / 2 ^ level

/-- A pair whose low bits are ones is the last one below its ancestor at that level. -/
theorem succ_eq_of_ones (ones : ∀ bit < l, i.testBit bit = true) :
    i + 1 = 2 ^ l * (i / 2 ^ l + 1) := by
  induction l with
  | zero => simp
  | succ l ih =>
    have lower := ih (fun bit inside => ones bit (Nat.lt_succ_of_lt inside))
    have odd := ones l (Nat.lt_succ_self l)
    rw [Nat.testBit_eq_decide_div_mod_eq, decide_eq_true_eq] at odd
    have halves : 2 * (i / 2 ^ l / 2 + 1) = i / 2 ^ l + 1 := by omega
    calc
      i + 1 = 2 ^ l * (i / 2 ^ l + 1) := lower
      _ = 2 ^ l * (2 * (i / 2 ^ l / 2 + 1)) := by rw [halves]
      _ = 2 ^ (l + 1) * (i / 2 ^ (l + 1) + 1) := by
        rw [Nat.pow_succ, Nat.mul_assoc, Nat.div_div_eq_div_mul]

theorem completed_above {top : Nat} (ones : ∀ bit < top, i.testBit bit = true)
    (zero : i.testBit top = false) (above : top < level) :
    (i + 1) / 2 ^ level = i / 2 ^ level := by
  have split := succ_eq_of_ones ones
  rw [Nat.testBit_eq_decide_div_mod_eq, decide_eq_false_iff_not] at zero
  obtain ⟨rest, rfl⟩ := Nat.exists_eq_add_of_lt above
  have power : 2 ^ (top + rest + 1) = 2 ^ top * (2 * 2 ^ rest) := by
    ring
  rw [power, ← Nat.div_div_eq_div_mul, ← Nat.div_div_eq_div_mul, ← Nat.div_div_eq_div_mul i,
    ← Nat.div_div_eq_div_mul, split, Nat.mul_div_cancel_left _ (Nat.two_pow_pos top)]
  congr 1
  omega

/-- What a pass reads is finished, and what it writes is next. -/
theorem hashParent_spec (inside : 2 * i + 1 < 2 ^ height) (ones : ∀ bit < l, i.testBit bit = true)
    (hashing : Hashing ext leaf height (completed i l) data) :
    ∃ hashed, hashParent ext (data, (2 * (i / 2 ^ l) : Nat), i / 2 ^ l) l =
        .ok (hashed, (((2 * (i / 2 ^ l) : Nat) : Int) - 1) >>> (1 : Nat), i / 2 ^ l / 2) ∧
      Hashing ext leaf height (completed i (l + 1)) hashed := by
  have whole := succ_eq_of_ones ones
  generalize quotient : i / 2 ^ l = q at whole
  have room : 2 ^ l * (2 * (q + 1)) ≤ 2 ^ height := by
    grind
  have below : l < height := by
    apply (Nat.pow_lt_pow_iff_right (by decide : 1 < 2)).mp
    grind
  have bound : q < 2 ^ (height - (l + 1)) := by
    have split : 2 ^ height = 2 ^ l * (2 * 2 ^ (height - (l + 1))) := by
      rw [← Nat.pow_succ', ← pow_add]
      congr 1
      omega
    rw [split] at room
    have inner := le_of_mul_le_mul_left room (Nat.two_pow_pos l)
    omega
  have children : ∀ lower, l = lower + 1 → 2 * q + 1 < completed i l lower := by
    rintro lower rfl
    rw [completed, if_pos (Nat.lt_succ_self lower), whole, Nat.pow_succ, Nat.mul_assoc,
      Nat.mul_div_cancel_left _ (Nat.two_pow_pos lower)]
    omega
  obtain ⟨hashed, paired, more⟩ := hashPair_spec hashing below
    (by rw [completed, if_neg (lt_irrefl l), quotient]) bound children
  refine ⟨hashed, ?_, more.mono ?_⟩
  · rw [hashParent, if_neg (by omega), Int.toNat_natCast, paired, ok_bind, Nat.shiftRight_one]
  · intro level _
    by_cases here : level = l
    · subst here
      rw [if_pos rfl, completed, if_pos (Nat.lt_succ_self level), whole,
        Nat.mul_div_cancel_left _ (Nat.two_pow_pos level)]
    · grind [completed]

theorem hashUp_spec (small : height ≤ 63) (inside : 2 * i + 1 < 2 ^ height)
    (hashing : Hashing ext leaf height (fun level => i / 2 ^ level) data) :
    ∃ hashed, hashUp ext data i = .ok hashed ∧
      Hashing ext leaf height (fun level => (i + 1) / 2 ^ level) hashed := by
  have word : i < 2 ^ 63 := by
    have bound : 2 ^ height ≤ 2 ^ 63 := Nat.pow_le_pow_right (by decide) small
    omega
  obtain ⟨_, ones, zero⟩ := trailingZeros_complement word
  generalize count : trailingZeros (complement i) = top at ones zero
  -- Before pass `l` the levels up to `l` are those of `i + 1` pairs, and both node numbers follow
  -- from the position of the pair.
  obtain ⟨⟨hashed, inNode, outNode⟩, looped, kept, _⟩ :
      ∃ final, forRange (top + 1) (hashParent ext) (data, 2 * (i : Int), i) = .ok final ∧
        Hashing ext leaf height (completed i (top + 1)) final.1 ∧
          (top + 1 ≤ top → final.2 = (((2 * (i / 2 ^ (top + 1)) : Nat) : Int), i / 2 ^ (top + 1))) := by
    refine forRange_invariant (fun l (state : List (List Node) × Int × Nat) =>
      Hashing ext leaf height (completed i l) state.1 ∧
        (l ≤ top → state.2 = (((2 * (i / 2 ^ l) : Nat) : Int), i / 2 ^ l))) (top + 1)
      ⟨hashing, fun _ => by simp⟩ ?_
    rintro l ⟨current, numbers⟩ below ⟨partly, known⟩
    obtain rfl := known (Nat.le_of_lt_succ below)
    obtain ⟨hashed, passed, more⟩ := hashParent_spec inside
      (fun bit lower => ones bit (lt_of_lt_of_le lower (Nat.le_of_lt_succ below))) partly
    refine ⟨_, passed, more, ?_⟩
    intro further
    have odd := ones l further
    rw [Nat.testBit_eq_decide_div_mod_eq, decide_eq_true_eq] at odd
    rw [Nat.pow_succ, ← Nat.div_div_eq_div_mul, Int.shiftRight_eq_div_pow]
    simp only [Prod.mk.injEq, and_true]
    omega
  refine ⟨hashed, ?_, ?_⟩
  · rw [hashUp, count, looped, ok_bind]
  · refine kept.mono ?_
    intro level _
    rw [completed]
    by_cases lower : level < top + 1
    · rw [if_pos lower]
    · rw [if_neg lower, completed_above ones zero (by omega)]

theorem Hashing.levels_eq (hashing : Hashing ext leaf height finished data)
    (all : ∀ level < height, 2 ^ (height - (level + 1)) ≤ finished level) :
    data = levels ext.parent leaf height := by
  apply ext_getElem
  · rw [hashing.rows, levels_length]
  · intro level inside _
    rw [hashing.rows] at inside
    have width := hashing.widths level (Nat.le_of_lt_succ inside)
    have row : data[level] = cell data level := by
      grind [cell]
    rw [row]
    apply ext_getElem
    · simp [levels, width]
    · intro i within _
      have value := hashing.row (Nat.le_of_lt_succ inside) (i := i) (by
        rintro lower rfl
        exact lt_of_lt_of_le (width ▸ within) (all lower (Nat.lt_of_succ_lt_succ inside)))
      rw [cell, getD_eq_getElem _ _ within] at value
      simp [levels, value]

theorem hashChunk_eq (small : height ≤ 63) (stacked : Stacked height data) :
    hashChunk ext data = .ok (levels ext.parent (cell (cell data 0)) height) := by
  have bottom : readAt data 0 = .ok (cell data 0) :=
    readAt_cell (by rw [stacked.rows]; exact Nat.succ_pos height)
  have width := stacked.widths 0 (Nat.zero_le height)
  obtain ⟨hashed, looped, kept⟩ :
      ∃ hashed, forRange ((cell data 0).length / 2) (hashUp ext) data = .ok hashed ∧
        Hashing ext (cell (cell data 0)) height
          (fun level => (cell data 0).length / 2 / 2 ^ level) hashed := by
    refine forRange_invariant (fun i hashed => Hashing ext (cell (cell data 0)) height
      (fun level => i / 2 ^ level) hashed) _ ⟨stacked, fun _ => rfl, ?_⟩ ?_
    · grind [Nat.zero_div]
    · intro i hashed inside kept
      refine hashUp_spec small ?_ kept
      rw [width, Nat.sub_zero] at inside
      omega
  rw [hashChunk, bottom, ok_bind, looped, kept.levels_eq]
  intro level below
  rw [width, Nat.sub_zero, Nat.div_div_eq_div_mul, ← Nat.pow_succ', Nat.pow_div below (by decide)]

theorem stacked_levels (parent : Node → Node → Node) (leaf : Nat → Node) (height : Nat) :
    Stacked height (levels parent leaf height) where
  rows := levels_length _ _ _
  widths := by
    grind [levels, cell]

end Curio.Proof
