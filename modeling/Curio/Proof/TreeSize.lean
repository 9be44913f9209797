import Mathlib.Data.Nat.Size
import Mathlib.Tactic

/-! Level layout of flat trees: `lib/proof/tree_size.go`. -/

namespace Curio.Proof

open List

/-- The loops below end only for an arity of at least two; every caller passes a constant. -/
abbrev Arity := {arity : Nat // 2 ≤ arity}

def binary : Arity := ⟨2, le_refl 2⟩

def parentCount (arity : Arity) (count : Nat) : Nat := (count + arity.1 - 1) / arity.1

variable {count : Nat}

section

variable (arity : Arity)
include arity

theorem parentCount_lt (several : 1 < count) : parentCount arity count < count := by
  have large := arity.2
  unfold parentCount
  rw [Nat.div_lt_iff_lt_mul (by omega)]
  have spread : (count - 1) * arity.1 ≥ (count - 1) * 2 := Nat.mul_le_mul_left _ large
  have split : count * arity.1 = (count - 1) * arity.1 + arity.1 := by
    conv_lhs => rw [show count = count - 1 + 1 by omega, add_mul, one_mul]
  omega

theorem parentCount_pos (some : 0 < count) : 0 < parentCount arity count := by
  exact Nat.div_pos (by omega) (by omega)

def levelCounts (arity : Arity) (count : Nat) : List Nat :=
  if count = 0 then []
  else if several : 1 < count then count :: levelCounts arity (parentCount arity count)
  else [count]
termination_by count
decreasing_by exact parentCount_lt arity several

def computeTotalNodes (nLeaves : Nat) (arity : Arity) : Nat × List Nat :=
  ((levelCounts arity nLeaves).sum, levelCounts arity nLeaves)

def levelsAbove (arity : Arity) (leaves : Nat) : Nat :=
  if several : 1 < leaves then levelsAbove arity (parentCount arity leaves) + 1 else 0
termination_by leaves
decreasing_by exact parentCount_lt arity several

/-- One-based level of a node that covers `leaves` leaves; zero for no leaves at all. -/
def nodeLevel (leaves : Nat) (arity : Arity) : Nat :=
  if leaves = 0 then 0 else levelsAbove arity leaves + 1

@[simp] theorem levelCounts_zero : levelCounts arity 0 = [] := by
  rw [levelCounts]
  rfl

@[simp] theorem levelCounts_one : levelCounts arity 1 = [1] := by
  rw [levelCounts]
  rfl

theorem levelCounts_several (several : 1 < count) :
    levelCounts arity count = count :: levelCounts arity (parentCount arity count) := by
  rw [levelCounts, if_neg (by omega), dif_pos several]

end

theorem parentCount_binary (count : Nat) : parentCount binary count = (count + 1) / 2 := by
  rfl

theorem parentCount_two_pow (k : Nat) : parentCount binary (2 ^ (k + 1)) = 2 ^ k := by
  rw [parentCount_binary]
  omega

theorem levelCounts_cons (some : 0 < count) : ∃ rest, levelCounts binary count = count :: rest := by
  by_cases several : 1 < count
  · exact ⟨_, levelCounts_several binary several⟩
  · have single : count = 1 := by omega
    subst single
    exact ⟨[], levelCounts_one binary⟩

theorem levelCounts_le_sum (some : 0 < count) : count ≤ (levelCounts binary count).sum := by
  obtain ⟨rest, counts⟩ := levelCounts_cons some
  rw [counts]
  exact Nat.le_add_right _ _

/-- More leaves need more nodes, so the node count tells the leaf count. -/
theorem levelCounts_sum_lt {few many : Nat} (fewer : few < many) :
    (levelCounts binary few).sum < (levelCounts binary many).sum := by
  induction many using Nat.strong_induction_on generalizing few with
  | _ many ih =>
    by_cases several : 1 < few
    · have large : 1 < many := lt_trans several fewer
      have halfFew := parentCount_binary few
      have halfMany := parentCount_binary many
      rw [levelCounts_several binary several, levelCounts_several binary large, sum_cons, sum_cons]
      have above : (levelCounts binary (parentCount binary few)).sum ≤
          (levelCounts binary (parentCount binary many)).sum := by
        rcases lt_or_eq_of_le (by omega : parentCount binary few ≤ parentCount binary many)
          with strictly | same
        · exact le_of_lt (ih _ (parentCount_lt binary large) strictly)
        · rw [same]
      omega
    · have bound := levelCounts_le_sum (by omega : 0 < many)
      have small : (levelCounts binary few).sum = few := by
        rcases (by omega : few = 0 ∨ few = 1) with rfl | rfl
        · simp
        · simp
      omega

theorem levelCounts_sum_inj {first second : Nat}
    (same : (levelCounts binary first).sum = (levelCounts binary second).sum) : first = second := by
  rcases lt_trichotomy first second with less | equal | more
  · have apart := levelCounts_sum_lt less
    omega
  · exact equal
  · have apart := levelCounts_sum_lt more
    omega

/-- A full binary tree has the levels `2^k, 2^(k-1), ..., 1`. -/
theorem levelCounts_two_pow (k : Nat) :
    levelCounts binary (2 ^ k) = (range (k + 1)).map (fun level => 2 ^ (k - level)) := by
  induction k with
  | zero => simp
  | succ k ih =>
    rw [levelCounts_several binary (Nat.one_lt_two_pow' k), parentCount_two_pow, ih,
      @List.range_succ_eq_map (k + 1)]
    simp

theorem levelCounts_sum_two_pow (k : Nat) : (levelCounts binary (2 ^ k)).sum + 1 = 2 ^ (k + 1) := by
  induction k with
  | zero => simp
  | succ k ih =>
    rw [levelCounts_several binary (Nat.one_lt_two_pow' k), parentCount_two_pow, sum_cons]
    omega

theorem levelsAbove_two_pow (k : Nat) : levelsAbove binary (2 ^ k) = k := by
  induction k with
  | zero =>
    rw [levelsAbove]
    rfl
  | succ k ih => rw [levelsAbove, dif_pos (Nat.one_lt_two_pow' k), parentCount_two_pow, ih]

@[simp] theorem nodeLevel_two_pow (k : Nat) : nodeLevel (2 ^ k) binary = k + 1 := by
  have positive : 2 ^ k ≠ 0 := (Nat.two_pow_pos k).ne'
  rw [nodeLevel, if_neg positive, levelsAbove_two_pow]

end Curio.Proof
