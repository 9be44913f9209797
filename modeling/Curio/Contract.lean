import Curio.ByteCodec

/-! Contracts with checked arithmetic: a call returns or reverts with a message, a mapping is total,
and integers are packed with their most significant byte first. -/

namespace Contract

open ByteCodec

abbrev Reverting (α : Type) := Except String α

def require (condition : Prop) [Decidable condition] (message : String) : Reverting Unit :=
  if condition then .ok () else .error message

def expect {α : Type} (value : Option α) (message : String) : Reverting α :=
  match value with
  | none => .error message
  | some value => .ok value

def wordLimit : Nat := 2 ^ 256

def checkedAdd (left right : Nat) : Reverting Nat :=
  if left + right < wordLimit then .ok (left + right) else .error "Panic(0x11)"

section Inversion

variable {α β : Type} {result : β}

theorem require_bind_eq_ok {condition : Prop} [Decidable condition] {message : String}
    {rest : Unit → Reverting β} :
    (require condition message >>= rest) = .ok result ↔ condition ∧ rest () = .ok result := by
  by_cases holds : condition <;> simp [require, holds, bind, Except.bind]

theorem expect_bind_eq_ok {value : Option α} {message : String} {rest : α → Reverting β} :
    (expect value message >>= rest) = .ok result ↔
      ∃ found, value = some found ∧ rest found = .ok result := by
  cases value <;> simp [expect, bind, Except.bind]

theorem checkedAdd_bind_eq_ok {left right : Nat} {rest : Nat → Reverting β} :
    (checkedAdd left right >>= rest) = .ok result ↔
      left + right < wordLimit ∧ rest (left + right) = .ok result := by
  by_cases fits : left + right < wordLimit <;> simp [checkedAdd, fits, bind, Except.bind]

end Inversion

section Mapping

variable {Key : Type} [Fintype Key] [DecidableEq Key]

theorem sum_update (mapping : Key → Nat) (key : Key) (value : Nat) :
    ∑ entry, Function.update mapping key value entry + mapping key =
      ∑ entry, mapping entry + value := by
  have others : ∑ entry ∈ {key}ᶜ, Function.update mapping key value entry =
      ∑ entry ∈ {key}ᶜ, mapping entry := by
    apply Finset.sum_congr rfl
    intro entry member
    rw [Function.update_of_ne (by simpa using member)]
  calc
    _ = (value + ∑ entry ∈ {key}ᶜ, mapping entry) + mapping key := by
      rw [Fintype.sum_eq_add_sum_compl key, others, Function.update_self]
    _ = (mapping key + ∑ entry ∈ {key}ᶜ, mapping entry) + value := by omega
    _ = ∑ entry, mapping entry + value := by rw [← Fintype.sum_eq_add_sum_compl key]

end Mapping

/-- An integer in `abi.encodePacked`. -/
def packed (width value : Nat) : List UInt8 := (leBytes width value).reverse

end Contract
