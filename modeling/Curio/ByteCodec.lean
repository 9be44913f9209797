import Curio.GoRuntime

/-! Byte formats read from an `io.Reader` and written to a buffer.

A reader takes a prefix of its input and looks at nothing behind it; the type carries that.
`RoundTrip` is what a reader and a writer of one format owe each other. -/

namespace ByteCodec

open GoRuntime
open List hiding Vector

def leBytes : Nat → Nat → Bytes
  | 0, _ => []
  | width + 1, value => UInt8.ofNat (value % 256) :: leBytes width (value / 256)

def leValue (bytes : Bytes) : Nat := bytes.foldr (fun byte high => byte.toNat + 256 * high) 0

@[simp] theorem leBytes_length (width value : Nat) : (leBytes width value).length = width := by
  induction width generalizing value with
  | zero => rfl
  | succ width ih => rw [leBytes, length_cons, ih]

theorem leValue_lt (bytes : Bytes) : leValue bytes < 256 ^ bytes.length := by
  induction bytes with
  | nil => decide
  | cons low high ih =>
    have byte := low.toNat_lt
    rw [leValue, foldr_cons, ← leValue, length_cons]
    omega

theorem leValue_leBytes (width value : Nat) (fits : value < 256 ^ width) :
    leValue (leBytes width value) = value := by
  induction width generalizing value with
  | zero => rw [pow_zero] at fits; rw [Nat.lt_one_iff.mp fits]; rfl
  | succ width ih => grind [leBytes, leValue, UInt8.toNat_ofNat']

theorem leBytes_leValue (bytes : Bytes) : leBytes bytes.length (leValue bytes) = bytes := by
  induction bytes with
  | nil => rfl
  | cons low high ih =>
    have byte := low.toNat_lt
    have value : leValue (low :: high) = low.toNat + 256 * leValue high := rfl
    have lowest : (low.toNat + 256 * leValue high) % 256 = low.toNat := by omega
    have others : (low.toNat + 256 * leValue high) / 256 = leValue high := by omega
    rw [length_cons, leBytes, value, lowest, others, ih, UInt8.ofNat_toNat]

variable {count length : Nat} {context : String} {bytes front back : Bytes}

theorem leBytes_take {width : Nat} (value : Nat) (fits : count ≤ width) :
    (leBytes width value).take count = leBytes count value := by
  induction width generalizing count value with
  | zero =>
    obtain rfl := Nat.le_zero.mp fits
    rfl
  | succ width ih =>
    cases count with
    | zero => rfl
    | succ count => grind [leBytes]

theorem leValue_leBytes_mod (width value : Nat) :
    leValue (leBytes width value) = value % 256 ^ width := by
  induction width generalizing value with
  | zero => rw [pow_zero, Nat.mod_one]; rfl
  | succ width ih =>
    have byte : (UInt8.ofNat (value % 256)).toNat = value % 256 := by
      rw [UInt8.toNat_ofNat', Nat.mod_mod]
    rw [leBytes, leValue, foldr_cons, ← leValue, ih, byte, pow_succ', Nat.mod_mul]

theorem leValue_append (low high : Bytes) :
    leValue (low ++ high) = leValue low + 256 ^ low.length * leValue high := by
  induction low with
  | nil => simp [leValue]
  | cons byte low ih =>
    have first : ∀ rest, leValue (byte :: rest) = byte.toNat + 256 * leValue rest := fun _ => rfl
    grind

/-- A type whose values `encoding/binary` reads and writes: all have the same size. -/
class FixedSize (T : Type) where
  size : Nat
  put : T → Bytes
  get : Bytes → T
  put_length : ∀ value, (put value).length = size
  get_put : ∀ value, get (put value) = value
  put_get : ∀ bytes, bytes.length = size → put (get bytes) = bytes

instance : FixedSize UInt32 where
  size := 4
  put value := leBytes 4 value.toNat
  get bytes := UInt32.ofNat (leValue bytes)
  put_length _ := leBytes_length _ _
  get_put value := by
    rw [leValue_leBytes _ _ (by simpa using value.toNat_lt), UInt32.ofNat_toNat]
  put_get bytes length := by
    have fits := leValue_lt bytes
    rw [length] at fits
    rw [UInt32.toNat_ofNat', Nat.mod_eq_of_lt (by simpa using fits), ← length, leBytes_leValue]

instance : FixedSize UInt64 where
  size := 8
  put value := leBytes 8 value.toNat
  get bytes := UInt64.ofNat (leValue bytes)
  put_length _ := leBytes_length _ _
  get_put value := by
    rw [leValue_leBytes _ _ (by simpa using value.toNat_lt), UInt64.ofNat_toNat]
  put_get bytes length := by
    have fits := leValue_lt bytes
    rw [length] at fits
    rw [UInt64.toNat_ofNat', Nat.mod_eq_of_lt (by simpa using fits), ← length, leBytes_leValue]

theorem leValue_take_put (value : UInt64) (rest : Bytes) :
    leValue ((FixedSize.put value ++ rest).take 8) = value.toNat := by
  have size : (FixedSize.put value).length = 8 := FixedSize.put_length value
  rw [take_left' size]
  exact leValue_leBytes _ _ (by simpa using value.toNat_lt)

instance (n : Nat) : FixedSize (Vector UInt8 n) where
  size := n
  put value := value.toList
  get bytes := Vector.ofFn fun i => bytes.getD i 0
  put_length value := value.length_toList
  get_put value := by
    ext i bound
    simp
  put_get bytes length := by
    subst length
    apply ext_getElem
    · simp
    · intro i inside bound
      simp

section Readers

variable {α β : Type}
variable {used : Bytes}

/-- A read takes a prefix of the input and does not look behind it. -/
structure Reader (α : Type) where
  run : Bytes → Go (α × Bytes)
  takes : ∀ {input value rest}, run input = .ok (value, rest) →
    ∃ used, input = used ++ rest ∧ ∀ more, run (used ++ more) = .ok (value, more)

/-- The reader takes exactly these bytes, whatever follows them. -/
def Reads (reader : Reader α) (used : Bytes) (value : α) : Prop :=
  ∀ more, reader.run (used ++ more) = .ok (value, more)

variable {reader : Reader α} {value : α}

theorem Reader.reads_of_run {input rest : Bytes}
    (returned : reader.run input = .ok (value, rest)) :
    ∃ used, input = used ++ rest ∧ Reads reader used value := reader.takes returned

namespace Reader

def lift (call : Go α) : Reader α where
  run input := call >>= fun value => .ok (value, input)
  takes := by
    intro input value rest returned
    obtain ⟨given, called, same⟩ := bind_eq_ok.mp returned
    cases same
    exact ⟨[], rfl, fun more => by rw [called]; rfl⟩

protected def bind (first : Reader α) (next : α → Reader β) : Reader β where
  run input := first.run input >>= fun taken => (next taken.1).run taken.2
  takes := by
    intro input value rest returned
    obtain ⟨⟨given, middle⟩, firstRan, nextRan⟩ := bind_eq_ok.mp returned
    obtain ⟨front, rfl, again⟩ := first.takes firstRan
    obtain ⟨back, rfl, onward⟩ := (next given).takes nextRan
    refine ⟨front ++ back, (append_assoc _ _ _).symm, fun more => ?_⟩
    rw [append_assoc, again, ok_bind, onward]

instance : Monad Reader where
  pure value := lift (.ok value)
  bind := Reader.bind

/-- `fmt.Errorf("context: %w", err)` around a read. -/
def within (context : String) (reader : Reader α) : Reader α where
  run input := wrap context (reader.run input)
  takes := by
    intro input value rest returned
    obtain ⟨used, split, again⟩ := reader.takes (wrap_eq_ok.mp returned)
    exact ⟨used, split, fun more => wrap_eq_ok.mpr (again more)⟩

/-- `io.ReadFull` into a buffer of the given length. -/
def full (length : Nat) : Reader Bytes where
  run input := readFull ⟨input, none⟩ length >>= fun buffer => .ok (buffer, input.drop length)
  takes := by
    intro input value rest returned
    obtain ⟨buffer, taken, same⟩ := bind_eq_ok.mp returned
    cases same
    by_cases enough : length ≤ input.length
    · rw [readFull_of_le enough] at taken
      cases taken
      refine ⟨input.take length, (take_append_drop _ _).symm, fun more => ?_⟩
      have size : (input.take length).length = length := length_take_of_le enough
      rw [readFull_of_le (by simp [size]), ok_bind, take_left' size, drop_left' size]
    · simp only [readFull, if_neg enough] at taken
      cases taken

end Reader

@[simp] theorem reads_pure {given value : α} {used : Bytes} :
    Reads (pure given) used value ↔ used = [] ∧ value = given := by
  constructor
  · intro reads
    have run := reads []
    simp only [pure, Reader.lift, ok_bind, Except.ok.injEq, Prod.mk.injEq] at run
    exact ⟨by simpa using run.2, run.1.symm⟩
  · rintro ⟨rfl, rfl⟩
    exact fun _ => rfl

theorem reads_bind {first : Reader α} {next : α → Reader β} {value : β} :
    Reads (first >>= next) used value ↔
      ∃ given front back, used = front ++ back ∧ Reads first front given ∧
        Reads (next given) back value := by
  constructor
  · intro reads
    obtain ⟨⟨given, middle⟩, firstRan, nextRan⟩ := bind_eq_ok.mp (reads [])
    obtain ⟨front, split, again⟩ := Reader.reads_of_run firstRan
    obtain ⟨back, rfl, onward⟩ := Reader.reads_of_run nextRan
    grind
  · rintro ⟨given, front, back, rfl, again, onward⟩ more
    show (first.run _ >>= fun taken => (next taken.1).run taken.2) = _
    rw [append_assoc, again, ok_bind, onward]

theorem reads_bind_pure {build : α → β} {value : β} :
    Reads (reader >>= fun given => pure (build given)) used value ↔
      ∃ given, Reads reader used given ∧ value = build given := by
  rw [reads_bind]
  constructor
  · rintro ⟨given, front, back, rfl, took, none⟩
    obtain ⟨rfl, rfl⟩ := reads_pure.mp none
    exact ⟨given, by rwa [append_nil], rfl⟩
  · rintro ⟨given, took, rfl⟩
    exact ⟨given, used, [], (append_nil _).symm, took, reads_pure.mpr ⟨rfl, rfl⟩⟩

@[simp] theorem reads_within {used : Bytes} :
    Reads (reader.within context) used value ↔ Reads reader used value :=
  forall_congr' fun _ => wrap_eq_ok

theorem reads_within_eq : Reads (reader.within context) = Reads reader :=
  funext fun _ => funext fun _ => propext reads_within

theorem Reads.nothing_more {used more : Bytes} {value other : α}
    (short : Reads reader used value) (long : Reads reader (used ++ more) other) : more = [] := by
  have ran := long []
  rw [append_nil, short] at ran
  exact (Prod.mk.inj (Except.ok.inj ran)).2

theorem reads_lift {call : Go α} :
    Reads (Reader.lift call) used value ↔ used = [] ∧ call = .ok value := by
  constructor
  · intro reads
    obtain ⟨given, called, same⟩ := bind_eq_ok.mp (reads [])
    grind
  · rintro ⟨rfl, rfl⟩
    exact fun _ => rfl

theorem reads_full {used value : Bytes} :
    Reads (Reader.full length) used value ↔ used = value ∧ value.length = length := by
  constructor
  · intro reads
    obtain ⟨buffer, taken, same⟩ := bind_eq_ok.mp (reads [])
    simp only [append_nil, Except.ok.injEq, Prod.mk.injEq] at taken same
    obtain ⟨rfl, all⟩ := same
    have short : used.length ≤ length := by simpa using all
    by_cases enough : length ≤ used.length
    · have exact : used.length = length := le_antisymm short enough
      rw [readFull_of_le enough] at taken
      cases taken
      simp [exact]
    · simp only [readFull, if_neg enough] at taken
      cases taken
  · rintro ⟨rfl, rfl⟩ more
    show readFull _ _ >>= _ = _
    rw [readFull_of_le (by simp), ok_bind, take_left, drop_left]

end Readers

section Writers

variable {α : Type}

/-- Writing to a `bytes.Buffer`, whose own writes do not fail. -/
abbrev Writer (α : Type) := StateT Bytes Go α

def write (bytes : Bytes) : Writer Unit := fun written => .ok ((), written ++ bytes)

def Writer.within (context : String) (writer : Writer α) : Writer α :=
  fun written => wrap context (writer written)

/-- The writer adds exactly these bytes to what was written before. -/
def Writes (writer : Writer Unit) (bytes : Bytes) : Prop :=
  ∀ written, writer written = .ok ((), written ++ bytes)

theorem writes_write (bytes : Bytes) : Writes (write bytes) bytes := fun _ => rfl

theorem writes_pure : Writes (pure ()) [] := fun written => by
  rw [append_nil]
  rfl

theorem Writes.within {writer : Writer Unit} (context : String) (writes : Writes writer bytes) :
    Writes (writer.within context) bytes :=
  fun written => wrap_eq_ok.mpr (writes written)

variable {first next : Writer Unit}

theorem Writes.bind (before : Writes first front) (after : Writes next back) :
    Writes (first >>= fun _ => next) (front ++ back) := fun written => by
  show first written >>= _ = _
  rw [before, ok_bind, ← append_assoc]
  exact after _

def WritesSize (writer : Writer Unit) (size : Nat) : Prop :=
  ∃ bytes, Writes writer bytes ∧ bytes.length = size

theorem WritesSize.bind {front back : Nat} (before : WritesSize first front)
    (after : WritesSize next back) :
    WritesSize (first >>= fun _ => next) (front + back) := by
  obtain ⟨left, wroteLeft, rfl⟩ := before
  obtain ⟨right, wroteRight, rfl⟩ := after
  exact ⟨left ++ right, wroteLeft.bind wroteRight, length_append⟩

end Writers

section Words

variable {T : Type} [FixedSize T]

/-- `binary.Write` of a value of fixed size. -/
def writeLE (value : T) : Writer Unit := write (FixedSize.put value)

def writeUnsized (typeName : String) : Writer Unit := fun _ =>
  fail s!"binary.Write: some values are not fixed-sized in type {typeName}"

def readLE (T : Type) [FixedSize T] : Reader T := do
  let buffer ← Reader.full (FixedSize.size T)
  pure (FixedSize.get buffer)

theorem reads_readLE {used : Bytes} {value : T} :
    Reads (readLE T) used value ↔ used = FixedSize.put value := by
  simp only [readLE, reads_bind, reads_full, reads_pure]
  constructor
  · rintro ⟨buffer, front, back, rfl, ⟨rfl, length⟩, rfl, rfl⟩
    rw [FixedSize.put_get _ length, append_nil]
  · rintro rfl
    exact ⟨FixedSize.put value, _, [], (append_nil _).symm, ⟨rfl, FixedSize.put_length _⟩,
      rfl, (FixedSize.get_put _).symm⟩

end Words

variable {α β : Type} {first : Writer Unit}
variable {decode : Reader α}

/-- What is written is read back as the given value. -/
def Carries (writer : Writer Unit) (reader : Reader α) (value : α) : Prop :=
  ∃ bytes, Writes writer bytes ∧ Reads reader bytes value

theorem Carries.done (value : α) : Carries (pure ()) (pure value) value :=
  ⟨[], writes_pure, reads_pure.mpr ⟨rfl, rfl⟩⟩

variable {reader : Reader α} {writeContext readContext : String}

theorem Carries.within {writer : Writer Unit} {value : α} (carries : Carries writer reader value) :
    Carries (writer.within writeContext) (reader.within readContext) value := by
  obtain ⟨bytes, wrote, took⟩ := carries
  exact ⟨bytes, wrote.within _, reads_within.mpr took⟩

theorem Carries.bind {next : Writer Unit} {others : α → Reader β} {given : α} {value : β}
    (head : Carries first reader given) (tail : Carries next (others given) value) :
    Carries (first >>= fun _ => next) (reader >>= others) value := by
  obtain ⟨front, wrote, took⟩ := head
  obtain ⟨back, wroteNext, tookNext⟩ := tail
  exact ⟨front ++ back, wrote.bind wroteNext,
    reads_bind.mpr ⟨given, front, back, rfl, took, tookNext⟩⟩

theorem Carries.last {writer : Writer Unit} {given : α} {build : α → β}
    (carries : Carries writer reader given) :
    Carries writer (reader >>= fun value => pure (build value)) (build given) := by
  obtain ⟨bytes, wrote, took⟩ := carries
  exact ⟨bytes, wrote, reads_bind_pure.mpr ⟨given, took, rfl⟩⟩

theorem Carries.word {T : Type} [FixedSize T] (value : T) :
    Carries (writeLE value) (readLE T) value :=
  ⟨FixedSize.put value, writes_write _, reads_readLE.mpr rfl⟩

section Truncation

variable {given : α} {writer : Writer Unit} {others : α → Reader β}

/-- Every proper beginning of the bytes is refused with an `error`. -/
def Refuses (reader : Reader α) (used : Bytes) : Prop :=
  ∀ cut missing, used = cut ++ missing → missing ≠ [] → ∃ message, reader.run cut = fail message

theorem refuses_nil (reader : Reader α) : Refuses reader [] := by
  intro cut missing split left
  exact absurd (append_eq_nil_iff.mp split.symm).2 left

variable {reader : Reader α} {value : β}

theorem Refuses.within {used : Bytes} (refuses : Refuses reader used) (context : String) :
    Refuses (reader.within context) used := by
  intro cut missing split left
  obtain ⟨message, refused⟩ := refuses cut missing split left
  exact ⟨context ++ ": " ++ message, congrArg (wrap context) refused⟩

/-- The cut is inside the first part, or behind it and inside the second. -/
theorem Refuses.bind {first : Reader α} {next : α → Reader β} (took : Reads first front given)
    (refuses : Refuses first front) (refusesNext : Refuses (next given) back) :
    Refuses (first >>= next) (front ++ back) := by
  intro cut missing split left
  show ∃ message, (first.run cut >>= fun taken => (next taken.1).run taken.2) = fail message
  rcases append_eq_append_iff.mp split with ⟨middle, cutAt, backAt⟩ | ⟨middle, frontAt, lost⟩
  · obtain ⟨message, refused⟩ := refusesNext middle missing backAt left
    exact ⟨message, by rw [cutAt, took, ok_bind, refused]⟩
  · by_cases whole : middle = []
    · -- the cut is where the second part begins
      rw [whole, append_nil] at frontAt
      rw [whole, nil_append] at lost
      obtain ⟨message, refused⟩ := refusesNext [] back rfl (lost ▸ left)
      have ran := took []
      rw [append_nil, frontAt] at ran
      exact ⟨message, by rw [ran, ok_bind, refused]⟩
    · obtain ⟨message, refused⟩ := refuses cut middle frontAt whole
      exact ⟨message, by rw [refused, fail_bind]⟩

/-- What is written is read back, and it is refused when its end is missing. -/
def CarriesWhole (writer : Writer Unit) (reader : Reader α) (value : α) : Prop :=
  ∃ bytes, Writes writer bytes ∧ Reads reader bytes value ∧ Refuses reader bytes

theorem CarriesWhole.within {value : α} (carries : CarriesWhole writer reader value)
    (context : String) :
    CarriesWhole writer (reader.within context) value := by
  obtain ⟨bytes, wrote, took, refused⟩ := carries
  exact ⟨bytes, wrote, reads_within.mpr took, refused.within context⟩

theorem CarriesWhole.bind {next : Writer Unit} (head : CarriesWhole first reader given)
    (tail : CarriesWhole next (others given) value) :
    CarriesWhole (first >>= fun _ => next) (reader >>= others) value := by
  obtain ⟨front, wrote, took, refused⟩ := head
  obtain ⟨back, wroteNext, tookNext, refusedNext⟩ := tail
  exact ⟨front ++ back, wrote.bind wroteNext,
    reads_bind.mpr ⟨given, front, back, rfl, took, tookNext⟩,
    Refuses.bind took refused refusedNext⟩

theorem CarriesWhole.last (carries : CarriesWhole writer reader given)
    (built : Reads (others given) [] value) :
    CarriesWhole writer (reader >>= others) value := by
  obtain ⟨bytes, wrote, took, refused⟩ := carries
  refine ⟨bytes, wrote, reads_bind.mpr ⟨given, bytes, [], by simp, took, built⟩, ?_⟩
  have refusedAll := Refuses.bind took refused (refuses_nil (others given))
  rwa [append_nil] at refusedAll

theorem CarriesWhole.after {step : Reader α} (stepped : Reads step [] given)
    (carries : CarriesWhole writer (others given) value) :
    CarriesWhole writer (step >>= others) value := by
  obtain ⟨bytes, wrote, took, refused⟩ := carries
  exact ⟨bytes, wrote, reads_bind.mpr ⟨given, [], bytes, rfl, stepped, took⟩,
    Refuses.bind stepped (refuses_nil step) refused⟩

/-- `read_exact` into a buffer of the given length. -/
def Reader.exact (length : Nat) : Reader Bytes where
  run input :=
    if length ≤ input.length then .ok (input.take length, input.drop length)
    else fail "failed to fill whole buffer"
  takes := by
    intro input value rest returned
    by_cases enough : length ≤ input.length
    · rw [if_pos enough] at returned
      cases returned
      refine ⟨input.take length, (take_append_drop _ _).symm, fun more => ?_⟩
      have size : (input.take length).length = length := length_take_of_le enough
      rw [if_pos (by simp [size]), take_left' size, drop_left' size]
    · rw [if_neg enough] at returned
      cases returned

theorem CarriesWhole.exact (wrote : Writes writer bytes) (size : bytes.length = length) :
    CarriesWhole writer (Reader.exact length) bytes := by
  refine ⟨bytes, wrote, fun more => ?_, fun cut missing split left => ?_⟩
  · show (if length ≤ (bytes ++ more).length then _ else _) = _
    grind
  · have short : ¬length ≤ cut.length := by
      have total := congrArg List.length split
      have positive := length_pos_iff.mpr left
      rw [length_append] at total
      omega
    exact ⟨"failed to fill whole buffer", if_neg short⟩

end Truncation

/-- A format: what is written for a sound value is read back filled in, and the bytes a value
was read from are written for it again. -/
structure RoundTrip (encode : α → Writer Unit) (decode : Reader α) (sound : α → Prop)
    (filled : α → α) : Prop where
  carries : ∀ value, sound value → Carries (encode value) decode (filled value)
  rewrites : ∀ bytes value, Reads decode bytes value → Writes (encode value) bytes

theorem RoundTrip.word {T : Type} [FixedSize T] :
    RoundTrip (α := T) writeLE (readLE T) (fun _ => True) id where
  carries value _ := Carries.word value
  rewrites bytes value reads := by
    rw [reads_readLE.mp reads]
    exact writes_write _

theorem RoundTrip.within {encode : α → Writer Unit} {sound : α → Prop} {filled : α → α}
    (format : RoundTrip encode decode sound filled) :
    RoundTrip (fun value => (encode value).within writeContext) (decode.within readContext)
      sound filled where
  carries value holds := (format.carries value holds).within
  rewrites bytes value reads := (format.rewrites bytes value (reads_within.mp reads)).within _

section Fields

variable {α β : Type} {encode : α → Writer Unit} {decode : Reader α} {sound known : α → Prop}
  {filled : α → α} {write : β → Writer Unit} {read : Reader β} {fits : β → Prop} {fill : β → β}
  {part : α → β}

/-- The fields of a record that are still to read, where those before them are known. -/
structure Fields (encode : α → Writer Unit) (decode : Reader α) (sound : α → Prop) (filled : α → α)
    (known : α → Prop) : Prop where
  carries : ∀ value, sound value → known (filled value) →
    Carries (encode value) decode (filled value)
  rewrites : ∀ bytes value, Reads decode bytes value → known value ∧ Writes (encode value) bytes

theorem RoundTrip.ofFields (fields : Fields encode decode sound filled fun _ => True) :
    RoundTrip encode decode sound filled :=
  ⟨fun value holds => fields.carries value holds trivial,
    fun bytes value reads => (fields.rewrites bytes value reads).2⟩

variable (format : RoundTrip write read fits fill)
  (holds : ∀ value, sound value → fits (part value))
include format holds

theorem Fields.field {next : β → Reader α}
    (rest : ∀ given, Fields encode (next given) sound filled
      fun value => given = part value ∧ known value)
    (kept : ∀ value, part (filled value) = fill (part value) := by intro _; rfl) :
    Fields (fun value => write (part value) >>= fun _ => encode value) (read >>= next) sound filled
      known where
  carries value good before :=
    (format.carries _ (holds value good)).bind
      ((rest _).carries value good ⟨(kept value).symm, before⟩)
  rewrites bytes value reads := by
    obtain ⟨given, _, _, rfl, took, reads⟩ := reads_bind.mp reads
    obtain ⟨⟨rfl, before⟩, wrote⟩ := (rest given).rewrites _ _ reads
    exact ⟨before, (format.rewrites _ _ took).bind wrote⟩

theorem Fields.last {build : β → α}
    (made : ∀ given, part (build given) = given ∧ known (build given) := by simp)
    (rebuilt : ∀ value, known value → build (part value) = value := by rintro ⟨⟩; simp +contextual)
    (kept : ∀ value, part (filled value) = fill (part value) := by intro _; rfl) :
    Fields (fun value => write (part value)) (read >>= fun given => pure (build given)) sound filled
      known where
  carries value good before := by
    rw [← rebuilt _ before, kept]
    exact (format.carries _ (holds value good)).last
  rewrites bytes value reads := by
    obtain ⟨given, took, rfl⟩ := reads_bind_pure.mp reads
    obtain ⟨same, before⟩ := made given
    rw [same]
    exact ⟨before, format.rewrites _ _ took⟩

end Fields

def writeItems (encode : α → Writer Unit) : List α → Writer Unit
  | [] => pure ()
  | item :: rest => do
      encode item
      writeItems encode rest

def readItems (decode : Reader α) :
    (count : Nat) → Reader { items : List α // items.length = count }
  | 0 => pure ⟨[], rfl⟩
  | count + 1 => do
      let item ← decode
      let rest ← readItems decode count
      pure ⟨item :: rest.1, congrArg (· + 1) rest.2⟩

/-- The length of a slice as a `uint64`, then its items. -/
def writeSlice (lengthContext : String) (encode : α → Writer Unit) (slice : Slice α) :
    Writer Unit := do
  (writeLE (UInt64.ofNat slice.items.length)).within lengthContext
  writeItems encode slice.items

/-- `make` a slice of the given length and read its items. -/
def readMade (decode : Reader α) (length : Nat) : Reader (Slice α) :=
  if fits : length < 2 ^ 63 then do
    let read ← readItems decode length
    pure ⟨some read.1, lt_of_eq_of_lt read.2 fits⟩
  else .lift (panics "makeslice: len out of range")

def readSlice (lengthContext : String) (decode : Reader α) : Reader (Slice α) := do
  let length ← (readLE UInt64).within lengthContext
  readMade decode length.toNat

theorem length_word (slice : Slice α) :
    (UInt64.ofNat slice.items.length).toNat = slice.items.length := by
  have small := slice.length_lt
  rw [UInt64.toNat_ofNat', Nat.mod_eq_of_lt (by omega)]

theorem reads_readItems {used : Bytes} {items : { items : List α // items.length = count }} :
    Reads (readItems decode count) used items ↔
      ∃ parts, used = flatten parts ∧ List.Forall₂ (Reads decode) parts items.1 := by
  obtain ⟨items, rfl⟩ := items
  induction items generalizing used with
  | nil =>
    constructor
    · intro reads
      exact ⟨[], (reads_pure.mp reads).1, .nil⟩
    · rintro ⟨parts, rfl, reads⟩
      cases reads
      exact reads_pure.mpr ⟨rfl, rfl⟩
  | cons item rest ih =>
    constructor
    · intro reads
      obtain ⟨first, front, back, rfl, took, reads⟩ := reads_bind.mp reads
      obtain ⟨others, tookOthers, same⟩ := reads_bind_pure.mp reads
      obtain ⟨rfl, sameRest⟩ := List.cons.inj (congrArg Subtype.val same)
      have sameOthers : others = ⟨rest, rfl⟩ := Subtype.ext sameRest.symm
      rw [sameOthers] at tookOthers
      obtain ⟨parts, rfl, tookParts⟩ := ih.mp tookOthers
      exact ⟨front :: parts, rfl, .cons took tookParts⟩
    · rintro ⟨parts, rfl, reads⟩
      cases reads with
      | cons took others =>
        exact reads_bind.mpr ⟨item, _, _, rfl, took,
          reads_bind_pure.mpr ⟨⟨rest, rfl⟩, ih.mpr ⟨_, rfl, others⟩, rfl⟩⟩

theorem reads_readSlice {used : Bytes} {slice : Slice α} :
    Reads (readSlice context decode) used slice ↔
      ∃ parts, used = FixedSize.put (UInt64.ofNat slice.items.length) ++ flatten parts ∧
        List.Forall₂ (Reads decode) parts slice.items ∧ slice.contents = some slice.items := by
  constructor
  · intro reads
    obtain ⟨length, front, back, rfl, tookLength, reads⟩ := reads_bind.mp reads
    rw [reads_within, reads_readLE] at tookLength
    unfold readMade at reads
    split at reads
    · obtain ⟨items, took, rfl⟩ := reads_bind_pure.mp reads
      obtain ⟨parts, rfl, tookParts⟩ := reads_readItems.mp took
      refine ⟨parts, ?_, tookParts, rfl⟩
      rw [Slice.items_some, items.2, UInt64.ofNat_toNat, tookLength]
    · obtain ⟨_, impossible⟩ := reads_lift.mp reads
      cases impossible
  · rintro ⟨parts, rfl, reads, made⟩
    refine reads_bind.mpr ⟨_, _, _, rfl, reads_within.mpr (reads_readLE.mpr rfl), ?_⟩
    rw [length_word, readMade, dif_pos slice.length_lt]
    exact reads_bind_pure.mpr ⟨⟨slice.items, rfl⟩, reads_readItems.mpr ⟨parts, rfl, reads⟩,
      slice.eq_some made⟩

variable {encode : α → Writer Unit} {decode : Reader α} {sound : α → Prop} {filled : α → α}

variable (format : RoundTrip encode decode sound filled)
include format

theorem RoundTrip.carries_items (items : List α) (all : ∀ item ∈ items, sound item) :
    Carries (writeItems encode items) (readItems decode items.length)
      ⟨items.map filled, length_map _⟩ := by
  induction items with
  | nil => exact Carries.done _
  | cons item rest ih =>
    have tail := ih (forall_mem_cons.mp all).2
    exact (format.carries item (all item mem_cons_self)).bind tail.last

theorem RoundTrip.rewrites_items (count : Nat) :
    ∀ bytes items, Reads (readItems decode count) bytes items →
      Writes (writeItems encode items.1) bytes := by
  induction count with
  | zero =>
    intro bytes items reads
    obtain ⟨rfl, rfl⟩ := reads_pure.mp reads
    exact writes_pure
  | succ count ih =>
    intro bytes items reads
    obtain ⟨item, front, back, rfl, took, reads⟩ := reads_bind.mp reads
    obtain ⟨rest, tookRest, rfl⟩ := reads_bind_pure.mp reads
    exact (format.rewrites _ _ took).bind (ih _ _ tookRest)

/-- Slices of a format; a `nil` slice is read back as an empty one. -/
theorem RoundTrip.slice :
    RoundTrip (writeSlice writeContext encode) (readSlice readContext decode)
      (fun slice => ∀ item ∈ slice.items, sound item) (Slice.filled filled) where
  carries slice all := by
    refine (Carries.word _).within.bind ?_
    rw [length_word, readMade, dif_pos slice.length_lt]
    exact (format.carries_items slice.items all).last
  rewrites bytes slice reads := by
    obtain ⟨length, front, back, rfl, tookLength, reads⟩ := reads_bind.mp reads
    rw [reads_within, reads_readLE] at tookLength
    unfold readMade at reads
    split at reads
    · obtain ⟨items, took, rfl⟩ := reads_bind_pure.mp reads
      refine Writes.bind (Writes.within _ ?_) (format.rewrites_items _ _ _ took)
      rw [Slice.items_some, items.2, UInt64.ofNat_toNat, tookLength]
      exact writes_write _
    · obtain ⟨_, impossible⟩ := reads_lift.mp reads
      cases impossible

end ByteCodec
