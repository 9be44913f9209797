import Curio.Paths.SectorLocks

/-! The sub-batches of `DBIndex.BatchStorageDeclareSectors` in `lib/paths/db_index.go`. -/

namespace Curio.Paths

open GoRuntime List

structure SectorDeclaration extends Location where
  primary : Bool
  deriving DecidableEq

def maxParallelSubBatches : Nat := 8

/-- `items[start:end]` -/
def subSlice {α : Type} (items : List α) (start stop : Nat) : Go (List α) :=
  if start ≤ stop ∧ stop ≤ items.length then .ok ((items.take stop).drop start)
  else panics "slice bounds out of range"

def numSubBatches (numDeclarations : Nat) : Nat :=
  let rounded := if numDeclarations % maxParallelSubBatches ≠ 0
    then numDeclarations / maxParallelSubBatches + 1
    else numDeclarations / maxParallelSubBatches
  if rounded > maxParallelSubBatches then maxParallelSubBatches else rounded

/-- The batches handed to the goroutines, with the distinct declarations in the order in which the
map was ranged over. -/
def subBatches (declarations uniqueDeclarations : List SectorDeclaration) :
    Go (List (List SectorDeclaration)) :=
  if declarations.length = 0 then .ok []
  else
    let count := uniqueDeclarations.length
    let parts := numSubBatches count
    if parts = 0 then panics "integer divide by zero"
    else
      let subBatchSize := (count + parts - 1) / parts
      forRange parts (fun batches i => do
        let start := i * subBatchSize
        let batch ← subSlice uniqueDeclarations start (min (start + subBatchSize) count)
        .ok (batches ++ [batch])) []

/-- The two roundings fit: all sub-batches but the last begin inside, and the last reaches the
end. -/
theorem numSubBatches_fit {count : Nat} (some : 0 < count) :
    0 < numSubBatches count ∧ numSubBatches count ≤ maxParallelSubBatches ∧
      (numSubBatches count - 1) * ((count + numSubBatches count - 1) / numSubBatches count) ≤ count ∧
      count ≤ numSubBatches count * ((count + numSubBatches count - 1) / numSubBatches count) := by
  have parts : numSubBatches count = min ((count + 7) / 8) 8 := by
    simp only [numSubBatches, maxParallelSubBatches]
    grind
  have positive : 0 < numSubBatches count := by omega
  have capped : numSubBatches count ≤ 8 := by omega
  refine ⟨positive, capped, ?_⟩
  generalize numSubBatches count = num at *
  interval_cases num <;> omega

theorem subBatches_flatten {declarations uniqueDeclarations : List SectorDeclaration}
    (some : declarations ≠ []) (nonempty : 0 < uniqueDeclarations.length) :
    ∃ batches, subBatches declarations uniqueDeclarations = .ok batches ∧
      batches.length ≤ maxParallelSubBatches ∧ batches.flatten = uniqueDeclarations := by
  obtain ⟨positive, capped, inside, reached⟩ := numSubBatches_fit nonempty
  rw [subBatches, if_neg (by simpa using some)]
  simp only [Nat.pos_iff_ne_zero.mp positive]
  generalize numSubBatches uniqueDeclarations.length = parts at *
  generalize (uniqueDeclarations.length + parts - 1) / parts = size at *
  refine (forRange_invariant (fun i (batches : List (List SectorDeclaration)) =>
    batches.length = i ∧ batches.flatten = uniqueDeclarations.take (i * size)) parts ?_ ?_).imp
      fun batches ⟨ran, length, flat⟩ => ⟨ran, length ▸ capped, ?_⟩
  · simp
  · rintro i batches before ⟨length, flat⟩
    have begins : i * size ≤ uniqueDeclarations.length :=
      (Nat.mul_le_mul_right size (Nat.le_sub_one_of_lt before)).trans inside
    have joined := take_append_drop (i * size) (uniqueDeclarations.take (i * size + size))
    rw [take_take, Nat.min_eq_left (Nat.le_add_right _ _)] at joined
    simp only [subSlice]
    rw [if_pos ⟨by omega, by omega⟩, ← take_eq_take_min]
    refine ⟨_, rfl, by simp [length], ?_⟩
    rw [flatten_append, flatten_singleton, flat, joined, Nat.succ_mul]
  · rw [flat, take_of_length_le reached]

/-- Every distinct declaration is handed to exactly one of the goroutines. -/
theorem subBatches_partition (declarations uniqueDeclarations : List SectorDeclaration)
    (ranged : uniqueDeclarations ~ declarations.dedup) :
    ∃ batches, subBatches declarations uniqueDeclarations = .ok batches ∧
      batches.length ≤ maxParallelSubBatches ∧
      ∀ d, batches.flatten.count d = if d ∈ declarations then 1 else 0 := by
  by_cases none : declarations = []
  · subst none
    exact ⟨[], rfl, Nat.zero_le _, by simp⟩
  · obtain ⟨d, member⟩ := exists_mem_of_ne_nil _ none
    have listed : d ∈ uniqueDeclarations := ranged.mem_iff.mpr (mem_dedup.mpr member)
    obtain ⟨batches, cut, few, whole⟩ := subBatches_flatten none (length_pos_of_mem listed)
    refine ⟨batches, cut, few, fun other => ?_⟩
    rw [whole, ranged.count_eq, count_dedup]

/-- Ten declarations, the first of them twice, in two sub-batches. -/
theorem subBatches_partition_repeated :
    let d (number : Nat) : SectorDeclaration := ⟨⟨⟨1000, number⟩, 2, "store"⟩, true⟩
    let unique := (range 10).map d
    ∃ batches, subBatches (d 0 :: unique) unique = .ok batches ∧ batches.map length = [5, 5] ∧
      ∀ number < 10, batches.flatten.count (d number) = 1 := by
  intro d unique
  obtain ⟨batches, cut, -, once⟩ := subBatches_partition (d 0 :: unique) unique (by decide)
  have halves : subBatches (d 0 :: unique) unique = .ok [unique.take 5, unique.drop 5] := by decide
  refine ⟨batches, cut, ?_, fun number inside => ?_⟩
  · cases halves.symm.trans cut
    decide
  · rw [once, if_pos (mem_cons_of_mem _ (mem_map_of_mem (mem_range.mpr inside)))]

end Curio.Paths
