import Curio.GoRuntime
import Curio.StepMachine

/-! `AllocateSectorNumbers` in `tasks/seal/sector_num_alloc.go` over the table
`sectors_allocated_numbers`. A bitfield is the set of its bits, a transaction is atomic, and one
that fails leaves the table as it was. -/

namespace Curio.Seal.SectorNumbers

open GoRuntime StepMachine List

/-- The new numbers in the order of `ForEach`, and the bitfield to persist. `abi.MaxSectorNumber` is
the largest `int64`. -/
def allocateSectorNumbers (maxSectorNumber : Nat) (chainAlloc : Finset Nat)
    (allocated : Option (Finset Nat)) (count : Nat) : Go (List Nat × Finset Nat) :=
  let dbAllocated := allocated.getD ∅
  let merged := chainAlloc ∪ dbAllocated
  let inverted := (List.range maxSectorNumber).filter (· ∉ merged)
  if inverted.length < count then
    fail ("getting slice of allocated sector numbers: " ++
      "not enough bits set in field to satisfy slice count")
  else
    let toAlloc := inverted.take count
    .ok (toAlloc, merged ∪ toAlloc.toFinset)

structure State where
  allocated : Nat → Option (Finset Nat) := fun _ => none
  /-- The numbers that were returned, with their miners. -/
  returned : List (Nat × Nat) := []

structure Call where
  miner : Nat
  chainAlloc : Finset Nat
  count : Nat

def State.call (maxSectorNumber : Nat) (state : State) (call : Call) : Go (List Nat × Finset Nat) :=
  allocateSectorNumbers maxSectorNumber call.chainAlloc (state.allocated call.miner) call.count

def State.step (maxSectorNumber : Nat) (state : State) (call : Call) : Option State :=
  match state.call maxSectorNumber call with
  | .ok (numbers, toPersist) => some
    { allocated := Function.update state.allocated call.miner (some toPersist)
      returned := state.returned ++ numbers.map (call.miner, ·) }
  | .error _ => some state

def Persisted (state : State) : Prop :=
  ∀ miner number, (miner, number) ∈ state.returned → number ∈ (state.allocated miner).getD ∅

structure Fresh (maxSectorNumber : Nat) (state : State) (call : Call) (numbers : List Nat)
    (toPersist : Finset Nat) : Prop where
  count : numbers.length = call.count
  distinct : numbers.Nodup
  below : ∀ number ∈ numbers, number < maxSectorNumber
  notOnChain : ∀ number ∈ numbers, number ∉ call.chainAlloc
  unused : ∀ number ∈ numbers, (call.miner, number) ∉ state.returned
  chain : call.chainAlloc ⊆ toPersist
  earlier : ∀ number, (call.miner, number) ∈ state.returned → number ∈ toPersist
  new : ∀ number ∈ numbers, number ∈ toPersist

variable {maxSectorNumber : Nat} {state : State} {call : Call}

theorem Persisted.fresh (persisted : Persisted state) {numbers : List Nat} {toPersist : Finset Nat}
    (ok : state.call maxSectorNumber call = .ok (numbers, toPersist)) :
    Fresh maxSectorNumber state call numbers toPersist := by
  have listed := persisted call.miner
  unfold State.call allocateSectorNumbers at ok
  dsimp only at ok
  split at ok
  · cases ok
  · next enough =>
    cases ok
    have distinct := (nodup_range (n := maxSectorNumber)).filter
      (· ∉ call.chainAlloc ∪ (state.allocated call.miner).getD ∅)
    generalize taken : take call.count _ = numbers at *
    have free : ∀ number ∈ numbers, number < maxSectorNumber ∧
        number ∉ call.chainAlloc ∪ (state.allocated call.miner).getD ∅ := by
      intro number member
      rw [← taken] at member
      simpa using mem_of_mem_take member
    refine ⟨?_, ?_, fun number member => (free number member).1, ?_, ?_, ?_, ?_, ?_⟩
    · grind
    · exact taken ▸ distinct.sublist (take_sublist _ _)
    all_goals grind [mem_toFinset]

theorem Persisted.step {next : State} (persisted : Persisted state)
    (stepped : state.step maxSectorNumber call = some next) : Persisted next := by
  unfold State.step at stepped
  split at stepped
  · next numbers toPersist ok =>
    have fresh := persisted.fresh ok
    cases stepped
    intro miner number member
    rcases mem_append.mp member with old | new
    · by_cases same : miner = call.miner
      · subst same
        simpa using fresh.earlier number old
      · simpa [same] using persisted miner number old
    · obtain ⟨number, inside, same⟩ := mem_map.mp new
      cases same
      simpa using fresh.new number inside
  · cases stepped
    exact persisted

theorem State.step_persists {numbers : List Nat} {toPersist : Finset Nat}
    (ok : state.call maxSectorNumber call = .ok (numbers, toPersist)) :
    ∃ next, state.step maxSectorNumber call = some next ∧
      next.allocated call.miner = some toPersist := by
  refine ⟨_, by rw [State.step, ok], ?_⟩
  exact Function.update_self ..

/-- After any calls, for any miners and with any allocations on chain. The bitfield is the row of
the miner once the transaction is committed. -/
theorem numbers_fresh (calls : List Call) {state : State} (call : Call)
    (ran : run (State.step maxSectorNumber) {} calls = some state) {numbers : List Nat}
    {toPersist : Finset Nat} (ok : state.call maxSectorNumber call = .ok (numbers, toPersist)) :
    Fresh maxSectorNumber state call numbers toPersist ∧
      ∃ next, state.step maxSectorNumber call = some next ∧
        next.allocated call.miner = some toPersist := by
  have start : Persisted {} := by
    intro miner number member
    cases member
  have persisted : Persisted state := run_keeps (fun _ _ _ persisted => persisted.step) start ran
  exact ⟨persisted.fresh ok, State.step_persists ok⟩

theorem numbers_fresh_second :
    ∃ state toPersist, run (State.step 9) {} [⟨7, {0, 2}, 2⟩, ⟨8, ∅, 1⟩] = some state ∧
      Fresh 9 state ⟨7, {0, 2, 5}, 2⟩ [4, 6] toPersist ∧
      ∃ next, state.step 9 ⟨7, {0, 2, 5}, 2⟩ = some next ∧ next.allocated 7 = some toPersist :=
  ⟨_, _, rfl, numbers_fresh [⟨7, {0, 2}, 2⟩, ⟨8, ∅, 1⟩] _ rfl rfl⟩

end Curio.Seal.SectorNumbers
