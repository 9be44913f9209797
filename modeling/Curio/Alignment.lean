import Mathlib.Data.Nat.Bitwise
import Curio.GoRuntime

/-! Areas of power-of-two sizes, one after the other, each at a multiple of its size; and a word cut
into its bits from the lowest one on, which fills a gap that way. -/

namespace Alignment

open GoRuntime List

/-- Sizes from an offset on, each a power of two at a multiple of itself. -/
def Aligned : Nat → List Nat → Prop
  | _, [] => True
  | offset, size :: rest => (∃ bit, size = 2 ^ bit) ∧ size ∣ offset ∧ Aligned (offset + size) rest

variable {offset word : Nat}

theorem aligned_append {front back : List Nat} :
    Aligned offset (front ++ back) ↔ Aligned offset front ∧ Aligned (offset + front.sum) back := by
  induction front generalizing offset with
  | nil => simp [Aligned]
  | cons size rest ih =>
    rw [cons_append, Aligned, Aligned, ih, add_assoc]
    tauto

def onesCount (word : Nat) : Nat := ((range 64).filter word.testBit).length

/-- A number of bits of a word, from the lowest one on. -/
def lowBits : Nat → Nat → List Nat
  | 0, _ => []
  | count + 1, word =>
    let size := 2 ^ trailingZeros word
    size :: lowBits count (word ^^^ size)

section LowestBit

variable {word : Nat}

variable (set : 0 < onesCount word)
include set

theorem trailingZeros_spec :
    trailingZeros word < 64 ∧ word.testBit (trailingZeros word) = true ∧
      ∀ bit < trailingZeros word, word.testBit bit = false := by
  obtain ⟨bit, member⟩ := exists_mem_of_length_pos set
  obtain ⟨inside, here⟩ := mem_filter.mp member
  have found : trailingZeros word < (range 64).length := by
    grind [trailingZeros]
  obtain ⟨first, before⟩ := (findIdx_eq found).mp (rfl : _ = trailingZeros word)
  grind

theorem lowestBit_mul : ∃ half, word = 2 ^ trailingZeros word * (2 * half + 1) := by
  obtain ⟨-, here, before⟩ := trailingZeros_spec set
  have clear : word % 2 ^ trailingZeros word = 0 := by
    apply Nat.eq_of_testBit_eq
    grind
  have whole := Nat.div_add_mod word (2 ^ trailingZeros word)
  refine ⟨word / 2 ^ trailingZeros word / 2, ?_⟩
  grind

theorem clear_lowestBit : 2 ^ trailingZeros word + (word ^^^ 2 ^ trailingZeros word) = word := by
  obtain ⟨half, split⟩ := lowestBit_mul set
  generalize trailingZeros word = bit at split
  have shifted : word ^^^ 2 ^ bit = 2 ^ bit * (2 * half) := by
    calc
      word ^^^ 2 ^ bit = (2 * half + 1) <<< bit ^^^ 1 <<< bit := by
        rw [split, Nat.shiftLeft_eq, Nat.shiftLeft_eq, one_mul, mul_comm]
      _ = ((2 * half + 1) ^^^ 1) <<< bit := Nat.shiftLeft_xor_distrib.symm
      _ = (2 * half) <<< bit := by
        rw [Nat.xor_one_of_odd (by simp)]
        rfl
      _ = 2 ^ bit * (2 * half) := by rw [Nat.shiftLeft_eq, mul_comm]
  grind

theorem onesCount_clear : onesCount (word ^^^ 2 ^ trailingZeros word) + 1 = onesCount word := by
  obtain ⟨inside, here, -⟩ := trailingZeros_spec set
  have member : trailingZeros word ∈ (range 64).filter word.testBit :=
    mem_filter.mpr ⟨mem_range.mpr inside, here⟩
  have unique : ((range 64).filter word.testBit).Nodup := nodup_range.filter _
  have erased : (range 64).filter (word ^^^ 2 ^ trailingZeros word).testBit =
      ((range 64).filter word.testBit).erase (trailingZeros word) := by
    rw [unique.erase_eq_filter, filter_filter]
    apply filter_congr
    grind
  rw [onesCount, onesCount, erased, length_erase_of_mem member]
  have positive := length_pos_of_mem member
  omega

end LowestBit

theorem lowBits_sum (small : word < 2 ^ 64) : (lowBits (onesCount word) word).sum = word := by
  generalize counted : onesCount word = count
  induction count generalizing word with
  | zero =>
    have none : ∀ bit, word.testBit bit = false := by
      intro bit
      by_cases inside : bit < 64
      · by_contra set
        have member : bit ∈ (range 64).filter word.testBit :=
          mem_filter.mpr ⟨mem_range.mpr inside, by simpa using set⟩
        rw [onesCount] at counted
        grind
      · exact Nat.testBit_lt_two_pow (lt_of_lt_of_le small
          (Nat.pow_le_pow_right (by decide) (Nat.le_of_not_lt inside)))
    have zero : word = 0 := by
      apply Nat.eq_of_testBit_eq
      intro bit
      rw [none bit, Nat.zero_testBit]
    rw [zero]
    rfl
  | succ count ih =>
    have set : 0 < onesCount word := by omega
    have cleared := clear_lowestBit set
    have fewer := onesCount_clear set
    have positive := Nat.two_pow_pos (trailingZeros word)
    rw [lowBits, sum_cons, ih (by omega) (by omega)]
    exact cleared

theorem lowBits_mem {size : Nat} (member : size ∈ lowBits (onesCount word) word) :
    ∃ bit, size = 2 ^ bit ∧ word.testBit bit = true := by
  generalize counted : onesCount word = count at member
  induction count generalizing word with
  | zero => cases member
  | succ count ih =>
    have set : 0 < onesCount word := by omega
    have fewer := onesCount_clear set
    obtain ⟨-, here, -⟩ := trailingZeros_spec set
    rcases mem_cons.mp member with rfl | later
    · exact ⟨_, rfl, here⟩
    · grind

/-- The bits of a word fill the gap before a multiple of each of them. -/
theorem lowBits_aligned {target : Nat} (gap : offset + word = target)
    (multiple : ∀ bit, word.testBit bit = true → 2 ^ bit ∣ target) :
    Aligned offset (lowBits (onesCount word) word) := by
  generalize counted : onesCount word = count
  induction count generalizing word offset with
  | zero => trivial
  | succ count ih =>
    have set : 0 < onesCount word := by omega
    have cleared := clear_lowestBit set
    have fewer := onesCount_clear set
    obtain ⟨-, here, -⟩ := trailingZeros_spec set
    obtain ⟨half, split⟩ := lowestBit_mul set
    refine ⟨⟨_, rfl⟩, ?_, ih (by omega) ?_ (by omega)⟩
    · have divides : 2 ^ trailingZeros word ∣ word := ⟨2 * half + 1, split⟩
      have whole := multiple _ here
      rw [← gap] at whole
      exact (Nat.dvd_add_left divides).mp whole
    · grind

end Alignment
