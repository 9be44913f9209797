import Mathlib.Data.List.GetD
import Mathlib.Tactic

/-! Outcomes of a Go call and the rules for sequencing and looping over them.

A call returns a value, returns an `error`, panics, or never returns. The three
ways of not returning a value are kept apart: callers test for the first only. -/

namespace GoRuntime

open List

inductive Fault where
  | error (message : String)
  | panic (message : String)
  | hang
  deriving DecidableEq, Repr

/-- `[]byte` -/
abbrev Bytes := List UInt8

abbrev Go (α : Type) := Except Fault α

def fail {α : Type} (message : String) : Go α := .error (.error message)

def panics {α : Type} (message : String) : Go α := .error (.panic message)

/-- A call of code that is not modelled: it returns a value or an `error`. -/
abbrev Call (α : Type) := Except String α

def ofCall {α : Type} : Call α → Go α
  | .ok value => .ok value
  | .error message => fail message

variable {α : Type}

@[simp] theorem ofCall_ok (value : α) : ofCall (.ok value) = .ok value := rfl

theorem ofCall_eq_ok {call : Call α} {value : α} : ofCall call = .ok value ↔ call = .ok value := by
  cases call with
  | ok found => simp
  | error message => simp [ofCall, fail]

def Returns (call : Go α) : Prop := (∃ value, call = .ok value) ∨ ∃ message, call = fail message

theorem not_returns_panics (message : String) : ¬Returns (panics message : Go α) := by
  simp [Returns, panics, fail]

/-- `xerrors.Errorf("context: %w", err)`: only a returned error gets the context. -/
def wrap {α : Type} (context : String) : Go α → Go α
  | .ok value => .ok value
  | .error (.error message) => .error (.error (context ++ ": " ++ message))
  | .error (.panic message) => .error (.panic message)
  | .error .hang => .error .hang

@[simp] theorem wrap_ok (context : String) (value : α) : wrap context (.ok value) = .ok value := rfl

@[simp] theorem fail_bind {α β : Type} (message : String) (rest : α → Except Fault β) :
    (fail message : Go α) >>= rest = fail message := rfl

theorem wrap_eq_ok {context : String} {call : Go α} {value : α} :
    wrap context call = .ok value ↔ call = .ok value := by
  constructor
  · intro returned
    match call, returned with
    | .ok _, returned => simpa using returned
    | .error (.error _), returned | .error (.panic _), returned | .error .hang, returned =>
      simp [wrap] at returned
  · rintro rfl
    rfl

/-- Sequencing peels: a returned value comes from a returned first value. -/
theorem bind_eq_ok {α β : Type} {call : Go α} {rest : α → Go β} {result : β} :
    call >>= rest = .ok result ↔ ∃ value, call = .ok value ∧ rest value = .ok result := by
  cases call with
  | error fault | ok value => simp [bind, Except.bind]

@[simp] theorem ok_bind {α β : Type} (value : α) (rest : α → Go β) :
    (Except.ok value : Go α) >>= rest = rest value := rfl

@[simp] theorem error_bind {α β : Type} (fault : Fault) (rest : α → Go β) :
    (Except.error fault : Go α) >>= rest = .error fault := rfl

theorem Returns.bind {α β : Type} {call : Go α} {rest : α → Go β} (first : Returns call)
    (next : ∀ value, call = .ok value → Returns (rest value)) : Returns (call >>= rest) := by
  rcases first with ⟨value, ok⟩ | ⟨message, failed⟩
  · rw [ok]
    exact next value ok
  · rw [failed]
    exact .inr ⟨message, rfl⟩

theorem returns_wrap_ofCall (context : String) (call : Call α) :
    Returns (wrap context (ofCall call)) := by
  cases call with
  | ok value => exact .inl ⟨value, rfl⟩
  | error message => exact .inr ⟨_, rfl⟩

section Loops

variable {σ : Type}

/-- `for i := range count { state = body(state, i) }` -/
def forRange (count : Nat) (body : σ → Nat → Go σ) (state : σ) : Go σ :=
  (range count).foldlM body state

theorem forRange_succ (count : Nat) (body : σ → Nat → Go σ) (state : σ) :
    forRange (count + 1) body state = forRange count body state >>= fun s => body s count := by
  simp [forRange, range_succ]

theorem forRange_invariant {body : σ → Nat → Go σ} (invariant : Nat → σ → Prop)
    (count : Nat) {state : σ} (initial : invariant 0 state)
    (pass : ∀ i s, i < count → invariant i s → ∃ s', body s i = .ok s' ∧ invariant (i + 1) s') :
    ∃ final, forRange count body state = .ok final ∧ invariant count final := by
  induction count with
  | zero => exact ⟨state, rfl, initial⟩
  | succ count ih =>
    obtain ⟨middle, reached, holds⟩ :=
      ih (fun i s bound kept => pass i s (Nat.lt_succ_of_lt bound) kept)
    obtain ⟨final, stepped, kept⟩ := pass count middle (Nat.lt_succ_self count) holds
    exact ⟨final, by rw [forRange_succ, reached, ok_bind, stepped], kept⟩

/-- `for _, item := range items` with a body that may return early. -/
def forEach {α : Type} (items : List α) (body : α → Go Unit) : Go Unit :=
  match items with
  | [] => .ok ()
  | item :: rest => do
      body item
      forEach rest body

theorem forEach_eq_ok {α : Type} {items : List α} {body : α → Go Unit} :
    forEach items body = .ok () ↔ ∀ item ∈ items, body item = .ok () := by
  induction items with
  | nil => simp [forEach]
  | cons item rest ih =>
    rw [forEach, bind_eq_ok]
    grind

end Loops

section Checks

variable {ε : Type}

/-- `if bad { return reason }` -/
def rejectIf (bad : Prop) [Decidable bad] (reason : ε) : Except ε Unit :=
  if bad then .error reason else .ok ()

@[simp] theorem rejectIf_eq_ok {bad : Prop} [Decidable bad] {reason : ε} :
    rejectIf bad reason = .ok () ↔ ¬bad := by
  unfold rejectIf
  by_cases holds : bad <;> simp

variable {α : Type} {body : α → Except ε Unit}

theorem check_bind_eq_ok {first : Except ε Unit} {rest : Except ε α} {result : α} :
    (do first; rest) = .ok result ↔ first = .ok () ∧ rest = .ok result := by
  cases first with
  | error reason | ok value => simp [bind, Except.bind]

theorem forM_eq_ok {items : List α} :
    forM items body = .ok () ↔ ∀ item ∈ items, body item = .ok () := by
  induction items with
  | nil => simp [pure, Except.pure]
  | cons item rest ih =>
    rw [forM_cons, check_bind_eq_ok, ih, forall_mem_cons]

/-- `if pointer != nil { … }` around checks of what it points to. -/
def checkSome {α : Type} (pointer : Option α) (body : α → Except ε Unit) : Except ε Unit :=
  match pointer with
  | some value => body value
  | none => .ok ()

@[simp] theorem checkSome_eq_ok {pointer : Option α} :
    checkSome pointer body = .ok () ↔ ∀ value, pointer = some value → body value = .ok () := by
  cases pointer with
  | none | some value => simp [checkSome]

/-- `if flag { … }` around checks. -/
def checkWhen (flag : Bool) (body : Except ε Unit) : Except ε Unit :=
  if flag then body else .ok ()

theorem mapError_eq_ok {ε' α : Type} {context : ε → ε'} {call : Except ε α} {value : α} :
    call.mapError context = .ok value ↔ call = .ok value := by
  cases call with
  | error reason | ok found => simp [Except.mapError]

end Checks

section Slices

variable {α : Type}

/-- `slice[index]` with Go's bounds check. -/
def readAt (slice : List α) (index : Nat) : Go α :=
  match slice[index]? with
  | some value => .ok value
  | none => panics "index out of range"

def writeAt (slice : List α) (index : Nat) (value : α) : Go (List α) :=
  if index < slice.length then .ok (slice.set index value) else panics "index out of range"

variable {index : Nat} {slice : List α}

theorem readAt_eq_ok {value : α} : readAt slice index = .ok value ↔ slice[index]? = some value := by
  grind [readAt, panics]

theorem readAt_of_lt (bound : index < slice.length) : readAt slice index = .ok slice[index] := by
  rw [readAt_eq_ok]
  exact getElem?_eq_getElem bound

theorem writeAt_of_lt (value : α) (bound : index < slice.length) :
    writeAt slice index value = .ok (slice.set index value) := by
  simp [writeAt, bound]

def cell [Inhabited α] (slice : List α) (index : Nat) : α := slice.getD index default

theorem readAt_cell [Inhabited α] (bound : index < slice.length) :
    readAt slice index = .ok (cell slice index) := by
  rw [readAt_of_lt bound, cell, getD_eq_getElem _ _ bound]

theorem cell_append_left [Inhabited α] {front : List α} (back : List α)
    (bound : index < front.length) : cell (front ++ back) index = cell front index := by
  simp only [cell, getD_append _ _ _ _ bound]

theorem cell_append_right [Inhabited α] (front back : List α) (index : Nat) :
    cell (front ++ back) (front.length + index) = cell back index := by
  grind [cell]

@[simp] theorem cell_set_same [Inhabited α] (value : α)
    (bound : index < slice.length) : cell (slice.set index value) index = value := by
  simp [cell, bound]

theorem cell_set_other [Inhabited α] {index other : Nat} (value : α)
    (apart : other ≠ index) : cell (slice.set index value) other = cell slice other := by
  simp [cell, getElem?_set_ne (Ne.symm apart)]

/-- A slice as a value that may be `nil`; its length is an `int`. -/
structure Slice (α : Type) where
  contents : Option (List α)
  fits : (contents.getD []).length < 2 ^ 63
  deriving DecidableEq

namespace Slice

def items (slice : Slice α) : List α := slice.contents.getD []

def nil : Slice α := ⟨none, by simp⟩

def empty : Slice α := ⟨some [], by simp⟩

def filled (fill : α → α) (slice : Slice α) : Slice α :=
  ⟨some (slice.items.map fill), lt_of_eq_of_lt (length_map _) slice.fits⟩

def append (slice : Slice α) (item : α) : Go (Slice α) :=
  if fits : (slice.items ++ [item]).length < 2 ^ 63 then .ok ⟨some (slice.items ++ [item]), fits⟩
  else panics "growslice: len out of range"

theorem length_lt (slice : Slice α) : slice.items.length < 2 ^ 63 := slice.fits

@[simp] theorem items_some (items : List α) (fits : items.length < 2 ^ 63) :
    (Slice.mk (some items) fits).items = items := rfl

theorem eq_some (slice : Slice α) (made : slice.contents = some slice.items) :
    slice = ⟨some slice.items, slice.fits⟩ := by
  obtain ⟨contents, fits⟩ := slice
  grind

end Slice

end Slices

/-- What an `io.Reader` delivers: bytes, then the end or a failure. -/
structure Stream where
  bytes : List UInt8
  failure : Option String := none

/-- `io.ReadFull` into a buffer of the given length. -/
def readFull (stream : Stream) (length : Nat) : Go (List UInt8) :=
  if length ≤ stream.bytes.length then .ok (stream.bytes.take length)
  else match stream.failure with
    | some message => fail message
    | none => fail (if stream.bytes.isEmpty then "EOF" else "unexpected EOF")

/-- `io.MultiReader` of two readers. -/
def Stream.append (first second : Stream) : Stream :=
  match first.failure with
  | some message => ⟨first.bytes, some message⟩
  | none => ⟨first.bytes ++ second.bytes, second.failure⟩

theorem readFull_cases (stream : Stream) (length : Nat) :
    (∃ message, readFull stream length = fail message) ∨
      ∃ buffer, readFull stream length = .ok buffer ∧ buffer.length = length := by
  unfold readFull
  by_cases enough : length ≤ stream.bytes.length
  · grind
  · grind

theorem readFull_of_le {stream : Stream} {length : Nat} (enough : length ≤ stream.bytes.length) :
    readFull stream length = .ok (stream.bytes.take length) := by
  simp [readFull, enough]

def int64 (value : Int) : Int := Int.bmod value (2 ^ 64)

def uint64 (value : Int) : Nat := (value % 2 ^ 64).toNat

/-- `bits.TrailingZeros`: 64 for the zero word. -/
def trailingZeros (word : Nat) : Nat := (range 64).findIdx word.testBit

def complement (word : Nat) : Nat := 2 ^ 64 - (word + 1)

theorem trailingZeros_complement {word : Nat} (small : word < 2 ^ 63) :
    trailingZeros (complement word) < 64 ∧
      (∀ bit < trailingZeros (complement word), word.testBit bit = true) ∧
      word.testBit (trailingZeros (complement word)) = false := by
  have flipped : ∀ bit < 64, (complement word).testBit bit = !word.testBit bit := by
    intro bit inside
    rw [complement, Nat.testBit_two_pow_sub_succ (by omega)]
    simp [inside]
  have top : word.testBit 63 = false := Nat.testBit_lt_two_pow small
  have found : trailingZeros (complement word) < (range 64).length := by
    rw [trailingZeros, findIdx_lt_length]
    exact ⟨63, by simp, by rw [flipped 63 (by decide), top]; rfl⟩
  obtain ⟨here, before⟩ := (findIdx_eq found).mp (rfl : _ = trailingZeros (complement word))
  refine ⟨found, ?_, ?_⟩
  · grind
  · rw [getElem_range, flipped _ found] at here
    simpa using here

variable {value : Nat}

theorem int64_of_lt (bound : value < 2 ^ 63) : int64 value = value := by
  unfold int64
  rw [Int.bmod_eq_of_le] <;> omega

theorem int64_neg (large : 2 ^ 63 ≤ value) (small : value < 2 ^ 64) : int64 value < 0 := by
  rw [int64, Int.bmod_def]
  split <;> omega

theorem int64_le (value : Nat) : int64 value ≤ value := by
  unfold int64
  rw [Int.bmod_def]
  split <;> omega

theorem int64_emod (value : Int) : int64 value % 2 ^ 64 = value % 2 ^ 64 := by
  exact Int.bmod_emod

theorem uint64_of_lt (bound : value < 2 ^ 64) : uint64 value = value := by
  unfold uint64
  omega

end GoRuntime
