import Mathlib.Tactic

/-! IP addresses as in Go's `net/netip`: the text forms, the classes of addresses, prefixes. -/

namespace NetAddr

/-- The zero `Addr` is not valid. -/
inductive Addr where
  | invalid
  | v4 (bits : BitVec 32)
  | v6 (bits : BitVec 128) (zone : String)
  deriving DecidableEq

variable {bits : BitVec 128} {ip : Addr} {s : List Char}

namespace Addr

def unmap : Addr → Addr
  | .v6 bits zone => if bits.toNat / 2 ^ 32 = 0xffff then .v4 (bits.setWidth 32) else .v6 bits zone
  | ip => ip

def isValid : Addr → Bool
  | .invalid => false
  | _ => true

def isLoopback (ip : Addr) : Bool :=
  match ip.unmap with
  | .invalid => false
  | .v4 bits => bits.toNat / 2 ^ 24 = 127
  | .v6 bits _ => bits.toNat = 1

def isPrivate (ip : Addr) : Bool :=
  match ip.unmap with
  | .invalid => false
  | .v4 bits =>
    bits.toNat / 2 ^ 24 = 10 ∨ (bits.toNat / 2 ^ 24 = 172 ∧ bits.toNat / 2 ^ 20 % 16 = 1) ∨
      (bits.toNat / 2 ^ 24 = 192 ∧ bits.toNat / 2 ^ 16 % 256 = 168)
  | .v6 bits _ => bits.toNat / 2 ^ 121 = 0xfc / 2

def isLinkLocalUnicast (ip : Addr) : Bool :=
  match ip.unmap with
  | .invalid => false
  | .v4 bits => bits.toNat / 2 ^ 24 = 169 ∧ bits.toNat / 2 ^ 16 % 256 = 254
  | .v6 bits _ => bits.toNat / 2 ^ 118 = 0xfe80 / 2 ^ 6

def isMulticast (ip : Addr) : Bool :=
  match ip.unmap with
  | .invalid => false
  | .v4 bits => bits.toNat / 2 ^ 28 = 0xe
  | .v6 bits _ => bits.toNat / 2 ^ 120 = 0xff

/-- An address with a zone is not the unspecified one. -/
def isUnspecified (ip : Addr) : Bool := ip = .v4 0 ∨ ip = .v6 0 ""

/-- `AddrFromSlice`: four or sixteen bytes, the highest first. -/
def ofSlice (bytes : List UInt8) : Option Addr :=
  let word := bytes.foldl (fun word byte => word * 256 + byte.toNat) 0
  if bytes.length = 4 then some (.v4 (BitVec.ofNat 32 word))
  else if bytes.length = 16 then some (.v6 (BitVec.ofNat 128 word) "")
  else none

def zone : Addr → String
  | .v6 _ zone => zone
  | _ => ""

@[simp] theorem unmap_v4 (bits : BitVec 32) : unmap (.v4 bits) = .v4 bits := rfl

theorem unmap_mapped (mapped : bits.toNat / 2 ^ 32 = 0xffff) (zone : String) :
    unmap (.v6 bits zone) = .v4 (bits.setWidth 32) := if_pos mapped

theorem unmap_own (own : bits.toNat / 2 ^ 32 ≠ 0xffff) (zone : String) :
    unmap (.v6 bits zone) = .v6 bits zone := if_neg own

theorem unmap_unmap (ip : Addr) : ip.unmap.unmap = ip.unmap := by
  cases ip with
  | invalid | v4 bits => rfl
  | v6 bits zone =>
    by_cases mapped : bits.toNat / 2 ^ 32 = 0xffff
    · rw [unmap_mapped mapped, unmap_v4]
    · rw [unmap_own mapped, unmap_own mapped]

theorem zone_unmap (none : ip.zone = "") : ip.unmap.zone = "" := by
  cases ip with
  | invalid | v4 bits => rfl
  | v6 bits zone =>
    by_cases mapped : bits.toNat / 2 ^ 32 = 0xffff
    · rw [unmap_mapped mapped]
      rfl
    · rw [unmap_own mapped]
      exact none

theorem zone_ofSlice {bytes : List UInt8} (made : ofSlice bytes = some ip) :
    ip.zone = "" := by
  simp only [ofSlice] at made
  split at made
  · cases made
    rfl
  · split at made <;> cases made
    · rfl

end Addr

def dotted (word : Nat) : String :=
  s!"{word / 2 ^ 24 % 256}.{word / 2 ^ 16 % 256}.{word / 2 ^ 8 % 256}.{word % 256}"

/-- Start and length of the first longest run of at least two zero groups. -/
def zeroRun (groups : List Nat) : Nat × Nat :=
  (List.range groups.length).foldl (fun longest start =>
    let length := ((groups.drop start).takeWhile (· = 0)).length
    if 2 ≤ length ∧ longest.2 < length then (start, length) else longest) (groups.length, 0)

def groupsText (groups : List Nat) : String :=
  let hex := fun (groups : List Nat) =>
    ":".intercalate (groups.map fun group => String.ofList (Nat.toDigits 16 group))
  let (start, length) := zeroRun groups
  if length = 0 then hex groups
  else hex (groups.take start) ++ "::" ++ hex (groups.drop (start + length))

def Addr.text : Addr → String
  | .invalid => "invalid IP"
  | .v4 bits => dotted bits.toNat
  | .v6 bits zone =>
    let scope := if zone = "" then "" else "%" ++ zone
    if bits.toNat / 2 ^ 32 = 0xffff then "::ffff:" ++ dotted bits.toNat ++ scope
    else groupsText ((List.range 8).map fun i => bits.toNat / 2 ^ (16 * (7 - i)) % 2 ^ 16) ++ scope

/-- Four numbers up to 255 with dots between them and no leading zeros. -/
def parseIPv4Fields : List Char → (val digLen : Nat) → (fields : List Nat) → Option (List Nat)
  | [], val, digLen, fields =>
    if fields.length = 3 ∧ 0 < digLen then some (fields ++ [val]) else none
  | c :: rest, val, digLen, fields =>
    if c.isDigit then
      if digLen = 1 ∧ val = 0 then none
      else
        let val := val * 10 + (c.toNat - '0'.toNat)
        if val > 255 then none else parseIPv4Fields rest val (digLen + 1) fields
    else if c = '.' then
      if digLen = 0 ∨ fields.length = 3 then none
      else parseIPv4Fields rest 0 0 (fields ++ [val])
    else none

def parseIPv4 (s : List Char) : Option Addr :=
  (parseIPv4Fields s 0 0 []).map fun fields =>
    .v4 (BitVec.ofNat 32 (fields.foldl (fun word field => word * 256 + field) 0))

def hexDigit (c : Char) : Option Nat :=
  if c.isDigit then some (c.toNat - '0'.toNat)
  else if 'a' ≤ c ∧ c ≤ 'f' then some (c.toNat - 'a'.toNat + 10)
  else if 'A' ≤ c ∧ c ≤ 'F' then some (c.toNat - 'A'.toNat + 10)
  else none

/-- The hexadecimal number in front, its length and what follows. -/
def hexGroup : List Char → (acc off : Nat) → Nat × Nat × List Char
  | [], acc, off => (acc, off, [])
  | c :: rest, acc, off =>
    match hexDigit c with
    | some digit => hexGroup rest (acc * 16 + digit) (off + 1)
    | none => (acc, off, c :: rest)

/-- The groups up to the end of the text or the eighth of them, where `::` stands, and the text that
is left. -/
def parseGroups : (room : Nat) → List Char → List Nat → Option Nat →
    Option (List Nat × Option Nat × List Char)
  | 0, s, groups, ellipsis => some (groups, ellipsis, s)
  | room + 1, s, groups, ellipsis =>
    let (acc, off, rest) := hexGroup s 0 0
    if off = 0 ∨ 4 < off then none
    else
      match rest with
      | '.' :: _ =>
        -- an IPv4 address takes the room of two groups
        if (ellipsis = none ∧ groups.length ≠ 6) ∨ 8 < groups.length + 2 then none
        else
          (parseIPv4Fields s 0 0 []).map fun fields =>
            (groups ++ [fields.getD 0 0 * 256 + fields.getD 1 0,
              fields.getD 2 0 * 256 + fields.getD 3 0], ellipsis, [])
      | [] => some (groups ++ [acc], ellipsis, [])
      | ':' :: ':' :: more =>
        if ellipsis.isSome then none
        else if more = [] then some (groups ++ [acc], some (groups.length + 1), [])
        else parseGroups room more (groups ++ [acc]) (some (groups.length + 1))
      | ':' :: c :: more => parseGroups room (c :: more) (groups ++ [acc]) ellipsis
      | _ => none

/-- Zero groups in the place of `::`. -/
def expand (groups : List Nat) : Option Nat → Option (List Nat)
  | none => if groups.length = 8 then some groups else none
  | some ellipsis =>
    if groups.length < 8 then
      some (groups.take ellipsis ++ List.replicate (8 - groups.length) 0 ++ groups.drop ellipsis)
    else none

def parseIPv6Bits (s : List Char) : Option (BitVec 128) :=
  let parsed := match s with
    | [':', ':'] => some ([], some 0, [])
    | ':' :: ':' :: rest => parseGroups 8 rest [] (some 0)
    | s => parseGroups 8 s [] none
  match parsed with
  | some (groups, ellipsis, []) =>
    (expand groups ellipsis).map fun groups =>
      BitVec.ofNat 128 (groups.foldl (fun word group => word * 2 ^ 16 + group) 0)
  | _ => none

/-- A zone stands behind a percent sign and is not empty. -/
def parseIPv6 (s : List Char) : Option Addr :=
  if '%' ∈ s then
    let zone := (s.dropWhile (· ≠ '%')).drop 1
    if zone = [] then none
    else (parseIPv6Bits (s.takeWhile (· ≠ '%'))).map fun bits => .v6 bits (String.ofList zone)
  else (parseIPv6Bits s).map fun bits => .v6 bits ""

/-- `ParseAddr`: the first dot, colon or percent sign tells the form. -/
def parseAddr (s : String) : Option Addr :=
  match s.toList.find? fun c => c = '.' ∨ c = ':' ∨ c = '%' with
  | some '.' => parseIPv4 s.toList
  | some ':' => parseIPv6 s.toList
  | _ => none

theorem parseIPv4_zone (parsed : parseIPv4 s = some ip) :
    ip.zone = "" := by
  obtain ⟨fields, _, rfl⟩ := Option.map_eq_some_iff.mp parsed
  rfl

theorem parseIPv6_zone (unscoped : '%' ∉ s) (parsed : parseIPv6 s = some ip) : ip.zone = "" := by
  rw [parseIPv6, if_neg unscoped] at parsed
  obtain ⟨bits, _, rfl⟩ := Option.map_eq_some_iff.mp parsed
  rfl

theorem parseAddr_zone {s : String} (unscoped : '%' ∉ s.toList) (parsed : parseAddr s = some ip) :
    ip.zone = "" := by
  simp only [parseAddr] at parsed
  split at parsed
  · exact parseIPv4_zone parsed
  · exact parseIPv6_zone unscoped parsed
  · cases parsed

example : parseAddr "64:ff9b::10.0.0.1" =
    some (.v6 (BitVec.ofNat 128 (0x64ff9b * 2 ^ 96 + 0x0a000001)) "") := by decide

example : (parseAddr "2001:0:0:1:0:0:0:1").map Addr.text = some "2001:0:0:1::1" := by decide

structure Prefix where
  ip : Addr
  bits : Nat
  deriving DecidableEq

/-- `Contains`: addresses of the other family and those with a zone are not in it. -/
def Prefix.contains (p : Prefix) (ip : Addr) : Bool :=
  match p.ip, ip with
  | .v4 base, .v4 bits => bits.toNat / 2 ^ (32 - p.bits) = base.toNat / 2 ^ (32 - p.bits)
  | .v6 base _, .v6 bits zone =>
    zone = "" ∧ bits.toNat / 2 ^ (128 - p.bits) = base.toNat / 2 ^ (128 - p.bits)
  | _, _ => false

def Prefix.text (p : Prefix) : String := s!"{p.ip.text}/{p.bits}"

/-- The prefix of an address text and a length; `MustParsePrefix` panics where there is none. -/
def mustParsePrefix (addr : String) (bits : Nat) : Prefix := ⟨(parseAddr addr).getD .invalid, bits⟩

end NetAddr
