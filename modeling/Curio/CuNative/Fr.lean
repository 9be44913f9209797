import Mathlib.NumberTheory.LucasPrimality
import Curio.ByteCodec
import Curio.Proof.Verify

/-! The scalar field of BLS12-381 and its elements as 32-byte nodes. -/

namespace Curio.CuNative

open ByteCodec List
open GoRuntime (Bytes)
open Curio.Proof (nodeSize)

def frModulus : Nat := 0x73eda753299d7d483339d80809a1d80553bda402fffe5bfeffffffff00000001

abbrev Fr : Type := ZMod frModulus

def orderFactors : List (Nat × Nat) :=
  [(2, 32), (3, 1), (11, 1), (19, 1), (10177, 1), (125527, 1), (859267, 1), (906349, 2),
    (2508409, 1), (2529403, 1), (52437899, 1), (254760293, 2)]

theorem orderFactors_prod :
    (orderFactors.map fun factor => factor.1 ^ factor.2).prod = frModulus - 1 := by
  norm_num [orderFactors, frModulus]

theorem orderFactors_prime : ∀ factor ∈ orderFactors, factor.1.Prime := by
  simp only [orderFactors]
  norm_num

theorem orderFactors_all {q : Nat} (prime : q.Prime) (divides : q ∣ frModulus - 1) :
    ∃ factor ∈ orderFactors, q = factor.1 := by
  rw [← orderFactors_prod, Prime.dvd_prod_iff prime.prime] at divides
  obtain ⟨power, member, divides⟩ := divides
  obtain ⟨factor, listed, rfl⟩ := mem_map.mp member
  have base := prime.dvd_of_dvd_pow divides
  exact ⟨factor, listed, (Nat.prime_dvd_prime_iff_eq prime (orderFactors_prime factor listed)).mp base⟩

/-- Seven generates the units, by Lucas's test. -/
theorem frModulus_prime : frModulus.Prime := by
  apply lucas_primality frModulus 7
  · unfold frModulus
    reduce_mod_char
  · intro q prime divides
    obtain ⟨factor, listed, rfl⟩ := orderFactors_all prime divides
    unfold frModulus
    fin_cases listed
    all_goals
      reduce_mod_char
      decide +kernel

instance : Fact frModulus.Prime := ⟨frModulus_prime⟩

theorem frModulus_lt : frModulus < 256 ^ nodeSize := by
  norm_num [frModulus, nodeSize]

/-- `blst_fr_from_uint64` of the node's bytes: any 256-bit value, reduced. -/
def blstFrFromUint64 (node : Bytes) : Fr := (leValue node : Fr)

def blstUint64FromFr (element : Fr) : Bytes := leBytes nodeSize element.val

@[simp] theorem blstUint64FromFr_length (element : Fr) :
    (blstUint64FromFr element).length = nodeSize :=
  leBytes_length _ _

theorem leValue_zeros (count : Nat) : leValue (replicate count 0) = 0 := by
  induction count with
  | zero => rfl
  | succ count ih => rw [replicate_succ, leValue, foldr_cons, ← leValue, ih]; rfl

def Canonical (node : Bytes) : Prop := node.length = nodeSize ∧ leValue node < frModulus

theorem blstFrFromUint64_from (element : Fr) :
    blstFrFromUint64 (blstUint64FromFr element) = element := by
  rw [blstFrFromUint64, blstUint64FromFr, leValue_leBytes]
  · exact ZMod.natCast_zmod_val element
  · exact (ZMod.val_lt element).trans frModulus_lt

theorem blstUint64FromFr_of {node : Bytes} (canonical : Canonical node) :
    blstUint64FromFr (blstFrFromUint64 node) = node := by
  obtain ⟨length, small⟩ := canonical
  rw [blstUint64FromFr, blstFrFromUint64, ZMod.val_natCast_of_lt small, ← length]
  exact leBytes_leValue node

def nodeAt (buffer : Bytes) (index : Nat) : Bytes :=
  (buffer.drop (nodeSize * index)).take nodeSize

def nodeLoop (body : Nat → Bytes → Bytes → Fr) (count : Nat)
    (first second : Bytes) : Bytes :=
  (range count).flatMap fun index =>
    blstUint64FromFr (body index (nodeAt first index) (nodeAt second index))

variable {body : Nat → Bytes → Bytes → Fr} {first second : Bytes} {count index : Nat}
  {buffer : Bytes}

@[simp] theorem nodeLoop_length (body : Nat → Bytes → Bytes → Fr) (count : Nat)
    (first second : Bytes) :
    (nodeLoop body count first second).length = nodeSize * count := by
  simp [nodeLoop, mul_comm]

theorem nodeAt_drop (buffer : Bytes) (start index : Nat) :
    nodeAt (buffer.drop (nodeSize * start)) index = nodeAt buffer (start + index) := by
  rw [nodeAt, nodeAt, drop_drop, mul_add]

theorem nodeAt_flatMap {write : Nat → Bytes}
    (length : ∀ index < count, (write index).length = nodeSize) (below : index < count) :
    nodeAt ((range count).flatMap write) index = write index := by
  have before : ((range index).flatMap write).length = nodeSize * index := by
    have each : (range index).map (fun i => (write i).length)
        = (range index).map fun _ => nodeSize :=
      map_congr_left fun i member => length i ((mem_range.mp member).trans below)
    simp [each, mul_comm]
  have split : count = index + (1 + (count - index - 1)) := by omega
  rw [nodeAt, split, range_add, flatMap_append, ← before, drop_left,
    add_comm 1, range_succ_eq_map, map_cons, flatMap_cons, add_zero,
    ← length index below, take_left]

theorem flatMap_nodeAt (length : buffer.length = nodeSize * count) :
    (range count).flatMap (nodeAt buffer) = buffer := by
  induction count generalizing buffer with
  | zero => grind
  | succ count ih =>
    rw [Nat.mul_succ] at length
    have rest := @ih (buffer.drop nodeSize) (by rw [length_drop]; omega)
    have shifted : (fun index => nodeAt buffer (index + 1)) = nodeAt (buffer.drop nodeSize) := by
      funext index
      rw [add_comm, ← nodeAt_drop, mul_one]
    rw [range_succ_eq_map, flatMap_cons, flatMap_map]
    show nodeAt buffer 0 ++ flatMap (fun index => nodeAt buffer (index + 1)) _ = buffer
    rw [shifted, rest, nodeAt, Nat.mul_zero, drop_zero, take_append_drop]

theorem nodeLoop_add (start count : Nat) :
    nodeLoop body (start + count) first second =
      nodeLoop body start first second ++
        nodeLoop (fun index => body (start + index)) count (first.drop (nodeSize * start))
          (second.drop (nodeSize * start)) := by
  simp only [nodeLoop, range_add, flatMap_append, flatMap_map, nodeAt_drop]

theorem nodeAt_append (behind : Bytes) (inside : nodeSize * (index + 1) ≤ buffer.length) :
    nodeAt (buffer ++ behind) index = nodeAt buffer index := by
  grind [nodeAt]

theorem nodeLoop_congr {other : Nat → Bytes → Bytes → Fr}
    {first' second' : Bytes}
    (same : ∀ index < count, body index (nodeAt first index) (nodeAt second index)
      = other index (nodeAt first' index) (nodeAt second' index)) :
    nodeLoop body count first second = nodeLoop other count first' second' := by
  rw [nodeLoop, flatMap]
  congr 1
  apply map_congr_left
  grind

theorem nodeLoop_append (behind behind' : Bytes) (first_le : nodeSize * count ≤ first.length)
    (second_le : nodeSize * count ≤ second.length) :
    nodeLoop body count (first ++ behind) (second ++ behind')
      = nodeLoop body count first second := by
  apply nodeLoop_congr
  intro index below
  have inside : nodeSize * (index + 1) ≤ nodeSize * count := Nat.mul_le_mul_left _ below
  rw [nodeAt_append behind (inside.trans first_le), nodeAt_append behind' (inside.trans second_le)]

theorem nodeLoop_take {length : Nat} (inside : nodeSize * count ≤ length)
    (first_le : length ≤ first.length) (second_le : length ≤ second.length) :
    nodeLoop body count (first.take length) (second.take length)
      = nodeLoop body count first second := by
  rw [← nodeLoop_append (first.drop length) (second.drop length)
      (inside.trans (length_take_of_le first_le).ge)
      (inside.trans (length_take_of_le second_le).ge),
    take_append_drop, take_append_drop]

end Curio.CuNative
