import Curio.CuNative.Fr

/-! The reading loop of `Decode`, `EncodeSnap` and `DecodeSnap`: two streams are read in step, a
buffer of each at a time, and the second must have as many bytes as the first. -/

namespace Curio.CuNative

open List
open GoRuntime (Bytes)

open Curio.Proof (nodeSize)

inductive IoError where
  | eof
  | unexpectedEOF
  | other (message : String)
  deriving DecidableEq

structure Source where
  bytes : Bytes
  ending : IoError := .eof

/-- `io.ReadFull` into a buffer of the given length: what was read, and the error. -/
def readFull (source : Source) (length : Nat) : Bytes × Option IoError :=
  if length ≤ source.bytes.length then (source.bytes.take length, none)
  else
    match source.ending with
    | .eof => (source.bytes, some (if source.bytes.isEmpty then .eof else .unexpectedEOF))
    | error => (source.bytes, some error)

@[simps] def Source.drop (source : Source) (count : Nat) : Source :=
  { source with bytes := source.bytes.drop count }

/-- One pass of the loop: the end, an error for `errChan`, or a chunk of each stream. -/
inductive Piece where
  | finished
  | failed (error : IoError)
  | pair (first second : Bytes)

def readSecond (chunk : Bytes) (second : Source) : Piece :=
  match readFull second chunk.length with
  | (_, some .eof) => .failed .eof
  | (_, some (.other message)) => .failed (.other message)
  | (other, _) => if other.length = chunk.length then .pair chunk other else .failed .unexpectedEOF

def readPair (bufSz : Nat) (first second : Source) : Piece :=
  match readFull first bufSz with
  | (_, some .eof) => .finished
  | (_, some (.other message)) => .failed (.other message)
  | (chunk, _) => readSecond chunk second

/-- The first stream ends as a file does, and the second has enough bytes for it. -/
def Complete (first second : Source) : Prop :=
  (first.ending = .eof ∨ first.ending = .unexpectedEOF) ∧ first.bytes.length ≤ second.bytes.length

instance (first second : Source) : Decidable (Complete first second) :=
  inferInstanceAs (Decidable (_ ∧ _))

inductive Paired (bufSz : Nat) (first second : Source) : Piece → Prop
  | finished (empty : first.bytes = []) (ends : first.ending = .eof) :
      Paired bufSz first second .finished
  | failed {error : IoError} (partly : ¬ Complete first second)
      (short : min first.bytes.length second.bytes.length < bufSz) :
      Paired bufSz first second (.failed error)
  | short (complete : Complete first second) (short : first.bytes.length < bufSz)
      (more : first.bytes = [] → first.ending = .unexpectedEOF) :
      Paired bufSz first second (.pair first.bytes (second.bytes.take first.bytes.length))
  | whole (first_le : bufSz ≤ first.bytes.length) (second_le : bufSz ≤ second.bytes.length) :
      Paired bufSz first second (.pair (first.bytes.take bufSz) (second.bytes.take bufSz))

variable {bufSz : Nat} {first second : Source} {chunk : Bytes}

theorem readFull_of_le {source : Source} {length : Nat} (enough : length ≤ source.bytes.length) :
    readFull source length = (source.bytes.take length, none) :=
  if_pos enough

theorem readSecond_of_le (enough : chunk.length ≤ second.bytes.length) :
    readSecond chunk second = .pair chunk (second.bytes.take chunk.length) := by
  simp [readSecond, readFull_of_le enough, enough]

theorem readSecond_of_gt (short : second.bytes.length < chunk.length) :
    ∃ error, readSecond chunk second = .failed error := by
  unfold readSecond readFull
  rw [if_neg (by omega)]
  cases second.ending with
  | eof =>
    by_cases empty : second.bytes.isEmpty = true
    · exact ⟨.eof, by simp [empty]⟩
    · exact ⟨.unexpectedEOF, by simp [empty, short.ne]⟩
  | unexpectedEOF => exact ⟨.unexpectedEOF, by simp [short.ne]⟩
  | other message => exact ⟨.other message, rfl⟩

theorem readSecond_short (short : first.bytes.length < bufSz)
    (clean : first.ending = .eof ∨ first.ending = .unexpectedEOF)
    (more : first.bytes = [] → first.ending = .unexpectedEOF) :
    Paired bufSz first second (readSecond first.bytes second) := by
  by_cases enough : first.bytes.length ≤ second.bytes.length
  · rw [readSecond_of_le enough]
    exact .short ⟨clean, enough⟩ short more
  · obtain ⟨error, failed⟩ := readSecond_of_gt (Nat.lt_of_not_le enough)
    rw [failed]
    exact .failed (fun complete => enough complete.2) (by omega)

theorem readPair_paired [NeZero bufSz] :
    Paired bufSz first second (readPair bufSz first second) := by
  unfold readPair
  by_cases whole : bufSz ≤ first.bytes.length
  · have length : (first.bytes.take bufSz).length = bufSz := length_take_of_le whole
    rw [readFull_of_le whole]
    show Paired bufSz first second (readSecond (first.bytes.take bufSz) second)
    by_cases enough : bufSz ≤ second.bytes.length
    · rw [readSecond_of_le (by omega), length]
      exact .whole whole enough
    · obtain ⟨error, failed⟩ := @readSecond_of_gt second (first.bytes.take bufSz) (by omega)
      rw [failed]
      exact .failed (fun complete => by have := complete.2; omega) (by omega)
  · have short : first.bytes.length < bufSz := Nat.lt_of_not_le whole
    rw [readFull, if_neg whole]
    cases ends : first.ending with
    | eof =>
      by_cases empty : first.bytes.isEmpty = true
      · simp only [empty]
        exact .finished (isEmpty_iff.mp empty) ends
      · simp only [empty]
        exact readSecond_short short (.inl ends) (fun none => absurd (isEmpty_iff.mpr none) empty)
    | unexpectedEOF => exact readSecond_short short (.inr ends) (fun _ => ends)
    | other message =>
      exact .failed (fun complete => by simp [Complete, ends] at complete) (by omega)

theorem readPair_length [NeZero bufSz] {other : Bytes}
    (paired : readPair bufSz first second = .pair chunk other) :
    chunk.length ≤ first.bytes.length := by
  have cases := paired ▸ readPair_paired
  cases cases with
  | short => exact le_refl _
  | whole => exact length_take_le' _ _

/-- The chunks that are sent to the workers, and the error that ended the loop, if any. -/
def readPairs (bufSz : Nat) [NeZero bufSz] (first second : Source) :
    List (Bytes × Bytes) × Option IoError :=
  match _paired : readPair bufSz first second with
  | .finished => ([], none)
  | .failed error => ([], some error)
  | .pair chunk other =>
    if chunk.length < bufSz then ([(chunk, other)], none)
    else
      let later := readPairs bufSz (first.drop bufSz) (second.drop bufSz)
      ((chunk, other) :: later.1, later.2)
termination_by first.bytes.length
decreasing_by
  have positive := NeZero.pos bufSz
  have length := readPair_length _paired
  simp only [Source.drop, length_drop]
  omega

inductive Chunks (bufSz : Nat) :
    Source → Source → List (Bytes × Bytes) → Option IoError → Prop
  | finished {first second : Source} (empty : first.bytes = []) (ends : first.ending = .eof) :
      Chunks bufSz first second [] none
  | failed {first second : Source} {error : IoError} (partly : ¬ Complete first second)
      (short : min first.bytes.length second.bytes.length < bufSz) :
      Chunks bufSz first second [] (some error)
  | short {first second : Source} (complete : Complete first second)
      (short : first.bytes.length < bufSz)
      (more : first.bytes = [] → first.ending = .unexpectedEOF) :
      Chunks bufSz first second [(first.bytes, second.bytes.take first.bytes.length)] none
  | whole {first second : Source} {pairs : List (Bytes × Bytes)} {ending : Option IoError}
      (first_le : bufSz ≤ first.bytes.length) (second_le : bufSz ≤ second.bytes.length)
      (later : Chunks bufSz (first.drop bufSz) (second.drop bufSz) pairs ending) :
      Chunks bufSz first second ((first.bytes.take bufSz, second.bytes.take bufSz) :: pairs) ending

theorem readPairs_chunks (bufSz : Nat) [NeZero bufSz] (first second : Source) :
    Chunks bufSz first second (readPairs bufSz first second).1
      (readPairs bufSz first second).2 := by
  fun_induction readPairs bufSz first second with
  | case1 first second paired =>
    have cases := paired ▸ readPair_paired
    cases cases with
    | finished empty ends => exact .finished empty ends
  | case2 first second error paired =>
    have cases := paired ▸ readPair_paired
    cases cases with
    | failed partly short => exact .failed partly short
  | case3 first second chunk other paired under =>
    have cases := paired ▸ readPair_paired
    cases cases with
    | short complete short more => exact .short complete short more
    | whole first_le second_le => grind
  | case4 first second chunk other paired whole later ih =>
    have cases := paired ▸ readPair_paired
    cases cases with
    | short complete short more => exact absurd short whole
    | whole first_le second_le => exact .whole first_le second_le ih

def readTotal (bufSz : Nat) (first second : Source) : Nat :=
  if Complete first second then first.bytes.length
  else bufSz * (min first.bytes.length second.bytes.length / bufSz)

theorem complete_drop (first_le : bufSz ≤ first.bytes.length)
    (second_le : bufSz ≤ second.bytes.length) :
    Complete (first.drop bufSz) (second.drop bufSz) ↔ Complete first second := by
  apply and_congr Iff.rfl
  simp only [Source.drop, length_drop]
  omega

theorem readTotal_drop (positive : 0 < bufSz) (first_le : bufSz ≤ first.bytes.length)
    (second_le : bufSz ≤ second.bytes.length) :
    readTotal bufSz first second
      = bufSz + readTotal bufSz (first.drop bufSz) (second.drop bufSz) := by
  unfold readTotal
  simp only [complete_drop first_le second_le]
  split
  · simp only [Source.drop, length_drop]
    omega
  · have fewer : min (first.drop bufSz).bytes.length (second.drop bufSz).bytes.length
        = min first.bytes.length second.bytes.length - bufSz := by
      simp only [Source.drop, length_drop]
      omega
    have enough : bufSz ≤ min first.bytes.length second.bytes.length := by omega
    rw [fewer, Nat.div_eq_sub_div positive enough]
    ring

/-- Chunks of whole nodes, as long in the one stream as in the other. -/
def Even (pairs : List (Bytes × Bytes)) : Prop :=
  ∀ pair ∈ pairs, nodeSize ∣ pair.1.length ∧ pair.2.length = pair.1.length

/-- The loop over the nodes of one chunk, with the index that each has in the stream. -/
def chunkLoop (bufSz : Nat) (body : Nat → Bytes → Bytes → Fr) (chunkID : Nat)
    (pair : Bytes × Bytes) : Bytes :=
  nodeLoop (fun index => body (bufSz / nodeSize * chunkID + index)) (pair.1.length / nodeSize)
    pair.1 pair.2

variable {pairs : List (Bytes × Bytes)} {ending : Option IoError}
  (chunks : Chunks bufSz first second pairs ending)
include chunks

theorem Chunks.lengths : ∀ pair ∈ pairs, pair.2.length = pair.1.length ∧ pair.1.length ≤ bufSz := by
  induction chunks with
  | finished | failed => simp
  | short complete short =>
    intro pair member
    obtain rfl := mem_singleton.mp member
    exact ⟨length_take_of_le complete.2, short.le⟩
  | whole first_le second_le later ih => grind

theorem Chunks.sum_lengths (positive : 0 < bufSz) :
    (pairs.map fun pair => pair.1.length).sum = readTotal bufSz first second := by
  induction chunks with
  | finished empty ends => simp [readTotal, empty]
  | failed partly short => simp [readTotal, partly, Nat.div_eq_of_lt short]
  | short complete => simp [readTotal, complete]
  | whole first_le second_le later ih =>
    rw [readTotal_drop positive first_le second_le, ← ih, map_cons, sum_cons,
      length_take_of_le first_le]

theorem Chunks.offset_le (positive : 0 < bufSz) {chunkID : Nat} {pair : Bytes × Bytes}
    (found : pairs[chunkID]? = some pair) :
    bufSz * chunkID + pair.1.length ≤ readTotal bufSz first second := by
  induction chunks generalizing chunkID with
  | finished | failed => simp at found
  | short complete =>
    obtain ⟨rfl, rfl⟩ : chunkID = 0 ∧ _ = pair := by
      cases chunkID with
      | zero => exact ⟨rfl, Option.some.inj found⟩
      | succ chunkID => simp at found
    simp [readTotal, complete]
  | whole first_le second_le later ih =>
    rw [readTotal_drop positive first_le second_le]
    cases chunkID with
    | zero | succ chunkID => grind

theorem Chunks.ending_eq_none : ending = none ↔ Complete first second := by
  induction chunks with
  | finished empty ends => simp [Complete, empty, ends]
  | failed partly => simp [partly]
  | short complete => simp [complete]
  | whole first_le second_le later ih => rw [ih, complete_drop first_le second_le]

theorem Chunks.exists_empty (positive : 0 < bufSz) :
    (∃ pair ∈ pairs, pair.1 = []) ↔
      Complete first second ∧ first.ending = .unexpectedEOF ∧ bufSz ∣ first.bytes.length := by
  induction chunks with
  | finished empty ends => simp [ends]
  | failed partly => simp [partly]
  | @short first second complete short more =>
    have small : bufSz ∣ first.bytes.length ↔ first.bytes = [] := by
      rw [Nat.dvd_iff_mod_eq_zero, Nat.mod_eq_of_lt short, length_eq_zero_iff]
    simp only [mem_singleton, exists_eq_left, complete, true_and, small]
    exact ⟨fun empty => ⟨more empty, empty⟩, And.right⟩
  | @whole first second pairs ending first_le second_le later ih =>
    have filled : first.bytes.take bufSz ≠ [] := by
      rw [← length_pos_iff, length_take_of_le first_le]
      exact positive
    have rest : bufSz ∣ (first.drop bufSz).bytes.length ↔ bufSz ∣ first.bytes.length := by
      rw [Source.drop, length_drop]
      exact Nat.dvd_sub_iff_left first_le (dvd_refl bufSz)
    rw [complete_drop first_le second_le, rest] at ih
    simpa [filled] using ih

theorem Chunks.last {node : Nat} (divides : node ∣ bufSz) (complete : Complete first second)
    (uneven : ¬ node ∣ first.bytes.length) :
    ∃ front pair, pairs = front ++ [pair] ∧ pair.1.length < bufSz ∧ ¬ node ∣ pair.1.length := by
  induction chunks with
  | finished empty => simp [empty] at uneven
  | failed partly => exact absurd complete partly
  | short _ short => exact ⟨[], _, rfl, short, uneven⟩
  | @whole first second pairs ending first_le second_le later ih =>
    have still : ¬ node ∣ (first.drop bufSz).bytes.length := by
      rw [Source.drop, length_drop]
      intro rest
      exact uneven ((Nat.dvd_sub_iff_left first_le divides).mp rest)
    obtain ⟨front, pair, rfl, short, odd⟩ :=
      ih ((complete_drop first_le second_le).mpr complete) still
    exact ⟨_ :: front, pair, rfl, short, odd⟩

theorem Chunks.even (positive : 0 < bufSz) (divides : nodeSize ∣ bufSz)
    (even : nodeSize ∣ readTotal bufSz first second) : Even pairs := by
  have lengths := chunks.lengths
  induction chunks with
  | finished | failed => simp [Even]
  | short complete =>
    rw [readTotal, if_pos complete] at even
    intro pair member
    grind
  | whole first_le second_le later ih =>
    rw [readTotal_drop positive first_le second_le, Nat.dvd_add_right divides] at even
    intro pair member
    rcases mem_cons.mp member with rfl | member
    · grind
    · exact ih even (forall_mem_cons.mp lengths).2 pair member

/-- Taking the chunks one by one is taking the streams, wherever they were cut. -/
theorem Chunks.nodeLoop (positive : 0 < bufSz) (divides : nodeSize ∣ bufSz)
    (even : nodeSize ∣ readTotal bufSz first second) (body : Nat → Bytes → Bytes → Fr) :
    (pairs.mapIdx (chunkLoop bufSz body)).flatten
      = CuNative.nodeLoop body (readTotal bufSz first second / nodeSize) first.bytes
          second.bytes := by
  induction chunks generalizing body with
  | finished empty ends => simp [readTotal, empty, CuNative.nodeLoop]
  | failed partly short =>
    simp [readTotal, partly, Nat.div_eq_of_lt short, CuNative.nodeLoop]
  | @short first second complete short =>
    rw [readTotal, if_pos complete] at even ⊢
    have nodes := Nat.mul_div_cancel' even
    have whole := @nodeLoop_take body _ _ _ _ nodes.le (le_refl _) complete.2
    simpa [chunkLoop] using whole
  | @whole first second pairs ending first_le second_le later ih =>
    rw [readTotal_drop positive first_le second_le] at even ⊢
    have nodes := Nat.mul_div_cancel' divides
    have shifted : ∀ chunkID, chunkLoop bufSz body (chunkID + 1)
        = chunkLoop bufSz (fun index => body (bufSz / nodeSize + index)) chunkID := by
      intro chunkID
      funext pair
      simp only [chunkLoop, Nat.mul_succ, add_comm, add_left_comm]
    have start : chunkLoop bufSz body 0 (first.bytes.take bufSz, second.bytes.take bufSz)
        = CuNative.nodeLoop body (bufSz / nodeSize) first.bytes second.bytes := by
      simp only [chunkLoop, Nat.mul_zero, zero_add, length_take_of_le first_le]
      exact nodeLoop_take nodes.le first_le second_le
    simp only [mapIdx_cons, shifted, flatten_cons, start]
    rw [ih ((Nat.dvd_add_right divides).mp even), Nat.add_div_of_dvd_right divides, nodeLoop_add,
      nodes]
    rfl

end Curio.CuNative
