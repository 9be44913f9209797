import Mathlib.Data.List.GetD
import Mathlib.Tactic

/-! Rows of different lengths put one behind the other, with the offsets at which they begin. -/

namespace RowPacking

open List

variable {α : Type}

/-- Where row `i` begins; behind the last row, where they end. -/
def offset (rows : List (List α)) (i : Nat) : Nat := (rows.take i).flatten.length

def offsets (rows : List (List α)) : List Nat := (range (rows.length + 1)).map (offset rows)

@[simp] theorem offsets_length (rows : List (List α)) :
    (offsets rows).length = rows.length + 1 := by
  rw [offsets, length_map, length_range]

variable {i : Nat}

theorem offsets_getElem? (rows : List (List α)) (inside : i ≤ rows.length) :
    (offsets rows)[i]? = some (offset rows i) := by
  rw [offsets, getElem?_map, getElem?_range (Nat.lt_succ_of_le inside)]
  rfl

section

variable (rows more : List (List α))
include rows more

theorem offset_append_left (inside : i ≤ rows.length) :
    offset (rows ++ more) i = offset rows i := by
  rw [offset, offset, take_append_of_le_length inside]

theorem offset_append_right (i : Nat) :
    offset (rows ++ more) (rows.length + i) = rows.flatten.length + offset more i := by
  rw [offset, offset, take_length_add_append, flatten_append, length_append]

/-- The offsets of more rows are those of the rows alone, moved; the first is there already. -/
theorem offsets_append :
    offsets (rows ++ more) =
      offsets rows ++ ((offsets more).drop 1).map (rows.flatten.length + ·) := by
  have split : rows.length + more.length + 1 = (rows.length + 1) + more.length := by omega
  have front : (range (rows.length + 1)).map (offset (rows ++ more)) = offsets rows := by
    refine map_congr_left fun i inside => offset_append_left rows more ?_
    exact Nat.le_of_lt_succ (mem_range.mp inside)
  have back : ((range more.length).map (rows.length + 1 + ·)).map (offset (rows ++ more)) =
      ((offsets more).drop 1).map (rows.flatten.length + ·) := by
    apply ext_getElem
    · simp
    · intro i inside _
      have shifted : rows.length + 1 + i = rows.length + (1 + i) := by omega
      simp only [getElem_map, getElem_drop, offsets, getElem_range]
      rw [shifted, offset_append_right]
  rw [offsets, length_append, split, range_add, map_append, front, back]

end

variable (rows : List (List α))
include rows

theorem flatten_around_row (inside : i < rows.length) :
    rows.flatten = (rows.take i).flatten ++ (rows[i] ++ (rows.drop (i + 1)).flatten) := by
  conv_lhs => rw [← take_append_drop i rows, drop_eq_getElem_cons inside]
  rw [flatten_append, flatten_cons]

theorem offset_succ (inside : i < rows.length) :
    offset rows (i + 1) = offset rows i + rows[i].length := by
  rw [offset, offset, take_add_one, getElem?_eq_getElem inside, Option.toList_some,
    flatten_append, length_append, flatten_singleton]

theorem offset_le (i : Nat) : offset rows i ≤ rows.flatten.length := by
  conv_rhs => rw [← take_append_drop i rows, flatten_append, length_append]
  exact Nat.le_add_right _ _

theorem slice_row (inside : i < rows.length) :
    (rows.flatten.take (offset rows (i + 1))).drop (offset rows i) = rows[i] := by
  rw [offset_succ rows inside, flatten_around_row rows inside]
  have size : ((rows.take i).flatten).length = offset rows i := rfl
  rw [← size, take_length_add_append, take_left, drop_left]

end RowPacking
