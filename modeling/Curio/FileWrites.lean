import Mathlib.Tactic

/-! A file that is written in pieces, in any order: when every piece agrees with one intended
content and the pieces cover it, the file ends up with that content. -/

namespace FileWrites

open List

variable {α : Type*}

/-- Write data at an offset; a gap behind the end is filled. -/
def overwrite (fill : α) (file : List α) (offset : Nat) (data : List α) : List α :=
  (file ++ replicate (offset - file.length) fill).take offset ++ data ++
    file.drop (offset + data.length)

structure Write (α : Type*) where
  offset : Nat
  data : List α

namespace Write

def Covers (write : Write α) (position : Nat) : Prop :=
  write.offset ≤ position ∧ position < write.offset + write.data.length

def valueAt (write : Write α) (position : Nat) : Option α := write.data[position - write.offset]?

def Agrees (content : List α) (write : Write α) : Prop :=
  ∃ front back, content = front ++ write.data ++ back ∧ front.length = write.offset

variable {content : List α} {write : Write α} (agrees : write.Agrees content)
include agrees

theorem Agrees.fits : write.offset + write.data.length ≤ content.length := by
  obtain ⟨front, back, rfl, length⟩ := agrees
  simp only [length_append]
  omega

theorem Agrees.valueAt_eq {position : Nat} (covered : write.Covers position) :
    write.valueAt position = content[position]? := by
  obtain ⟨front, back, rfl, length⟩ := agrees
  obtain ⟨low, high⟩ := covered
  rw [valueAt, append_assoc, getElem?_append_right (by omega), length,
    getElem?_append_left (by omega)]

end Write

def Consistent (writes : List (Write α)) : Prop :=
  ∀ first ∈ writes, ∀ second ∈ writes, ∀ position, first.Covers position →
    second.Covers position → first.valueAt position = second.valueAt position

variable {writes : List (Write α)} {content file : List α}

theorem consistent_of_agrees (agree : ∀ write ∈ writes, write.Agrees content) :
    Consistent writes := by
  intro first firstIn second secondIn position firstCovers secondCovers
  rw [(agree first firstIn).valueAt_eq firstCovers, (agree second secondIn).valueAt_eq secondCovers]

theorem overwrite_length (fill : α) {offset : Nat} {data : List α}
    (fits : offset + data.length ≤ file.length) :
    (overwrite fill file offset data).length = file.length := by
  simp only [overwrite, length_append, length_take, length_drop]
  omega

theorem overwrite_getElem? (fill : α) {write : Write α}
    (fits : write.offset + write.data.length ≤ file.length) (position : Nat) :
    (write.Covers position →
      (overwrite fill file write.offset write.data)[position]? = write.valueAt position) ∧
    (¬ write.Covers position →
      (overwrite fill file write.offset write.data)[position]? = file[position]?) := by
  have gap : write.offset - file.length = 0 := by omega
  have front : (file.take write.offset).length = write.offset := by
    rw [length_take]
    omega
  rw [overwrite, gap, replicate_zero, append_nil, append_assoc]
  constructor
  · rintro ⟨low, high⟩
    rw [getElem?_append_right (by omega), front, getElem?_append_left (by omega), Write.valueAt]
  · intro outside
    by_cases before : position < write.offset
    · rw [getElem?_append_left (by omega), getElem?_take_of_lt before]
    · have behind : write.offset + write.data.length ≤ position := by
        by_contra inside
        exact outside ⟨by omega, by omega⟩
      rw [getElem?_append_right (by omega), getElem?_append_right (by omega), getElem?_drop]
      congr 1
      omega

/-- A file and the writes made to it so far, on the way to the intended content. -/
structure Written (content : List α) (file : List α) (writes : List (Write α)) : Prop where
  size : file.length = content.length
  agree : ∀ write ∈ writes, write.Agrees content
  final : ∀ write ∈ writes, ∀ position, write.Covers position → file[position]? = content[position]?

theorem Written.write (fill : α) {write : Write α} (written : Written content file writes)
    (agrees : write.Agrees content) :
    Written content (overwrite fill file write.offset write.data) (write :: writes) := by
  have fits : write.offset + write.data.length ≤ file.length := written.size ▸ agrees.fits
  refine ⟨(overwrite_length fill fits).trans written.size, ?_, ?_⟩
  · intro other member
    rcases mem_cons.mp member with rfl | earlier
    · exact agrees
    · exact written.agree other earlier
  · intro other member position covered
    obtain ⟨here, elsewhere⟩ := overwrite_getElem? fill fits position
    by_cases now : write.Covers position
    · rw [here now, agrees.valueAt_eq now]
    · rw [elsewhere now]
      rcases mem_cons.mp member with rfl | earlier
      · exact absurd covered now
      · exact written.final other earlier position covered

/-- Once every position is covered the file is the intended content. -/
theorem Written.complete (written : Written content file writes)
    (covered : ∀ position < content.length, ∃ write ∈ writes, write.Covers position) :
    file = content := by
  apply ext_getElem?
  intro position
  by_cases inside : position < content.length
  · obtain ⟨write, member, covers⟩ := covered position inside
    exact written.final write member position covers
  · rw [getElem?_eq_none (by rw [written.size]; omega), getElem?_eq_none (by omega)]

end FileWrites
