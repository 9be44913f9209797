import Mathlib.Tactic

/-! Custom capabilities of `pdp/contract/utils.go`, from their stored bytes to the text that is
shown and back. A string of Go is its bytes. -/

namespace Curio.Pdp

def runeError : Nat := 0xFFFD

/-- `utf8.DecodeRune` of a slice that is not empty: the first rune and its width. -/
def decodeRune (p : List UInt8) : Nat × Nat :=
  match p.toByteArray.utf8DecodeChar? 0 with
  | some c => (c.toNat, c.utf8Size)
  | none => (runeError, 1)

def isControl (r : Nat) : Bool := r < 0x20 || (0x7F ≤ r && r ≤ 0x9F)

/-- The loop, where the index is so many bytes further. -/
def shouldHexEncodeFrom : Nat → List UInt8 → Bool
  | _, [] => false
  | skip + 1, _ :: rest => shouldHexEncodeFrom skip rest
  | 0, b :: rest =>
    let (r, size) := decodeRune (b :: rest)
    (r == runeError && size == 1) || isControl r || shouldHexEncodeFrom (size - 1) rest

def shouldHexEncodeCapability (b : List UInt8) : Bool := shouldHexEncodeFrom 0 b

def hexDigit (d : UInt8) : UInt8 := if d < 10 then 48 + d else 87 + d

def encodeToString : List UInt8 → List UInt8
  | [] => []
  | x :: rest => hexDigit (x / 16) :: hexDigit (x % 16) :: encodeToString rest

def fromHexChar (c : UInt8) : Option UInt8 :=
  if 48 ≤ c ∧ c ≤ 57 then some (c - 48) else if 97 ≤ c ∧ c ≤ 102 then some (c - 87)
  else if 65 ≤ c ∧ c ≤ 70 then some (c - 55) else none

/-- `hex.DecodeString`; an odd length is an error. -/
def decodeString : List UInt8 → Option (List UInt8)
  | [] => some []
  | [_] => none
  | a :: b :: rest =>
    match fromHexChar a, fromHexChar b, decodeString rest with
    | some high, some low, some rest => some ((high * 16 + low) :: rest)
    | _, _, _ => none

def encodeCapabilityForDisplay (b : List UInt8) : List UInt8 :=
  if shouldHexEncodeCapability b then 48 :: 120 :: encodeToString b else b

/-- What `OfferingToCapabilities` stores for the text of a custom capability. -/
def customCapability (v : List UInt8) : List UInt8 :=
  if v.length % 2 = 0 ∧ 3 < v.length ∧ [48, 120] <+: v then (decodeString (v.drop 2)).getD v else v

/-- A text of `0x` and one or more pairs of hexadecimal digits. -/
def LooksHex (v : List UInt8) : Prop :=
  ∃ digits, v = 48 :: 120 :: digits ∧ 1 < digits.length ∧ digits.length % 2 = 0 ∧
    ∀ c ∈ digits, (fromHexChar c).isSome

variable {v d : List UInt8}

theorem decodeString_encodeToString (b : List UInt8) :
    decodeString (encodeToString b) = some b := by
  have digit (d : UInt8) (small : d < 16) : fromHexChar (hexDigit d) = some d := by
    grind [fromHexChar, hexDigit]
  induction b with
  | nil => rfl
  | cons x rest ih =>
    have whole : x / 16 * 16 + x % 16 = x := by grind
    simp [encodeToString, decodeString, digit (x / 16) (by grind), digit (x % 16) (by grind), ih,
      whole]

theorem decodeString_eq_some (decoded : decodeString v = some d) :
    v.length = 2 * d.length ∧ ∀ c ∈ v, (fromHexChar c).isSome := by
  fun_induction decodeString v generalizing d with
  | case1 =>
    cases decoded
    simp
  | case2 => cases decoded
  | case3 a b rest high low tail later second first ih =>
    cases decoded
    grind
  | case4 => cases decoded

theorem decodeString_isSome (even : v.length % 2 = 0) (all : ∀ c ∈ v, (fromHexChar c).isSome) :
    (decodeString v).isSome := by
  fun_induction decodeString v with
  | case1 | case3 => rfl
  | case2 => simp at even
  | case4 a b rest short ih =>
    have later := ih (by grind) (by grind)
    have first := all a (by simp)
    have second := all b (by simp)
    simp only [Option.isSome_iff_exists] at later first second
    grind

theorem decodeRune_ascii {c : UInt8} (rest : List UInt8) (ascii : c.toNat < 128) :
    decodeRune (c :: rest) = (c.toNat, 1) := by
  have size : (Char.ofUInt8 c).utf8Size = 1 := by
    apply Char.utf8Size_eq_one_iff.mpr
    exact UInt32.le_iff_toNat_le.mpr (Nat.le_of_lt_succ ascii)
  have encoded : String.utf8EncodeChar (Char.ofUInt8 c) = [c] := by
    rw [String.utf8EncodeChar_eq_singleton size]
    change [c.toUInt32.toUInt8] = [c]
    simp
  have decoded := @ByteArray.utf8DecodeChar?_utf8EncodeChar_append rest.toByteArray (Char.ofUInt8 c)
  rw [encoded, ← List.toByteArray_append] at decoded
  rw [decodeRune, ← List.singleton_append, decoded]
  exact congrArg (c.toNat, ·) size

theorem shouldHexEncodeFrom_ascii (printable : ∀ c ∈ v, 32 ≤ c.toNat ∧ c.toNat < 127) :
    shouldHexEncodeFrom 0 v = false := by
  induction v with
  | nil => rfl
  | cons c rest ih =>
    obtain ⟨low, high⟩ := printable c (by simp)
    have later := ih fun d member => printable d (by simp [member])
    simp only [shouldHexEncodeFrom, decodeRune_ascii rest (by omega : c.toNat < 128)]
    grind [isControl, runeError]

theorem LooksHex.text (looks : LooksHex v) : shouldHexEncodeCapability v = false := by
  obtain ⟨digits, rfl, -, -, all⟩ := looks
  apply shouldHexEncodeFrom_ascii
  intro c member
  simp only [List.mem_cons] at member
  rcases member with rfl | rfl | inside
  · decide
  · decide
  · have digit := all c inside
    simp only [fromHexChar, UInt8.le_iff_toNat_le] at digit
    grind

theorem customCapability_eq_iff : customCapability v = v ↔ ¬ LooksHex v := by
  constructor
  · rintro same ⟨digits, rfl, several, even, all⟩
    obtain ⟨d, decoded⟩ := Option.isSome_iff_exists.mp (decodeString_isSome even all)
    have length := (decodeString_eq_some decoded).1
    rw [customCapability, if_pos ⟨by grind, by grind, by simp⟩] at same
    have shorter := congrArg List.length same
    simp [decoded] at shorter
    omega
  · intro plain
    unfold customCapability
    split
    · rename_i shape
      obtain ⟨even, long, digits, rfl⟩ := shape
      cases decoded : decodeString digits with
      | none => simp [decoded]
      | some d =>
        have all := (decodeString_eq_some decoded).2
        exact absurd ⟨digits, rfl, by grind, by grind, all⟩ plain
    · rfl

theorem capability_round_trip_iff (b : List UInt8) :
    customCapability (encodeCapabilityForDisplay b) = b ↔ ¬ LooksHex b := by
  unfold encodeCapabilityForDisplay
  cases hex : shouldHexEncodeCapability b with
  | false => exact customCapability_eq_iff
  | true =>
    have binary : ¬ LooksHex b := fun looks => by simp [looks.text] at hex
    have decoded := decodeString_encodeToString b
    have pairs := (decodeString_eq_some decoded).1
    have nonempty : b ≠ [] := by rintro rfl; cases hex
    have positive := List.length_pos_iff.mpr nonempty
    rw [if_pos rfl, customCapability, if_pos ⟨by grind, by grind, by simp⟩]
    simp [decoded, binary]

/-- The text `0x41` comes back as the byte 0x41. -/
theorem hex_text_decoded :
    customCapability (encodeCapabilityForDisplay [48, 120, 52, 49]) = [0x41] := by
  decide +kernel

end Curio.Pdp
