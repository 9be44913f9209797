import Curio.Cuzk.MemoryBudget
import Curio.Pce.Disk

/-! The balance of the memory budget.

A call is followed through its parts by what it has in hand: the share of the counter that no
reservation, no attempt and no cached entry stands for. Each part of a call moves that share by a
rule of its own, and a whole call starts and ends with nothing in hand. -/

namespace Curio.Cuzk

open Function (update forall_update_iff)

open StepMachine List

namespace Memory

def live (st : Memory) : Nat :=
  (st.reservations.map fun r => r.remaining.toNat).sum

def pending (st : Memory) : Nat :=
  (st.undoing.map UInt64.toNat).sum

def pceCharge (entry : Option PceCacheEntry) : Nat :=
  (entry.map PceCacheEntry.charged).getD 0

def srsCharge (charged : Option Nat) : Nat :=
  charged.getD 0

def charged (st : Memory) : Nat :=
  ∑ circuitId, pceCharge (st.pce circuitId) + ∑ circuitId, srsCharge (st.srs circuitId)

/-- No attempt to acquire is between its addition and the undoing. -/
structure Calm (st : Memory) : Prop where
  undoing : st.undoing = []
  adjusting : st.adjusting = none

/-- The budget balances, and an eviction gives back what its entry is charged. -/
structure Balanced (st : Memory) : Prop where
  used : st.Calm → st.usedBytes.toNat = st.live + st.charged
  pceBack : ∀ circuitId entry, st.pce circuitId = some entry → entry.sizeBytes.toNat = entry.charged
  srsBack : ∀ circuitId charged, st.srs circuitId = some charged →
    ((st.srsFile circuitId).getD 0).toNat = charged
  live_le : st.live ≤ st.usedBytes.toNat

/-- The sizes that a step takes from different places agree. An attempt does not run over the word,
no more is released than a reservation has left, a circuit read from disk takes in memory what its
file takes or the budget has room for the difference, and an SRS is loaded on a reservation of its
file's size, which stays as long as it is loaded. -/
def SizesAgree (st : Memory) : Action → Prop
  | .attempt _ amount => st.usedBytes.toNat + amount.toNat < 2 ^ 64
  | .release r amount => amount ≤ r.remaining
  | .loadPce r actualSize =>
    match r.holder with
    | .pceLoad circuitId fileSize =>
      (st.pce circuitId).isSome = true ∨ actualSize = fileSize ∨
        (fileSize < actualSize ∧
          st.usedBytes.toNat + (actualSize - fileSize).toNat ≤ st.totalBytes.toNat)
    | _ => True
  | .ensureLoaded r =>
    match r.holder with
    | .srsLoad circuitId =>
      (st.srs circuitId).isSome = true ∨ st.srsFile circuitId = none ∨
        st.srsFile circuitId = some r.remaining
    | _ => True
  | .replaceFile circuitId _ => st.srs circuitId = none
  | _ => True

instance (st : Memory) : (action : Action) → Decidable (st.SizesAgree action)
  | .attempt _ _ => inferInstanceAs (Decidable (_ < _))
  | .release _ _ => inferInstanceAs (Decidable (_ ≤ _))
  | .loadPce ⟨.pceLoad _ _, _⟩ _ => inferInstanceAs (Decidable (_ ∨ _ ∨ _))
  | .loadPce ⟨.proof, _⟩ _ | .loadPce ⟨.pceInsert _ _, _⟩ _ | .loadPce ⟨.srsLoad _, _⟩ _ =>
    isTrue trivial
  | .ensureLoaded ⟨.srsLoad _, _⟩ => inferInstanceAs (Decidable (_ ∨ _ ∨ _))
  | .ensureLoaded ⟨.proof, _⟩ | .ensureLoaded ⟨.pceInsert _ _, _⟩
  | .ensureLoaded ⟨.pceLoad _ _, _⟩ => isTrue trivial
  | .replaceFile _ _ => inferInstanceAs (Decidable (_ = _))
  | .undo _ | .drop _ | .insertPce _ | .settle | .evictPce _ _ | .evictSrs _ _ => isTrue trivial

structure Accounted (st : Memory) (inHand : Nat) : Prop where
  balance : st.usedBytes.toNat = st.live + st.pending + st.charged + inHand
  adjusting : st.adjusting = none
  asked : ∀ r ∈ st.reservations, r.holder.asksFor r.remaining = true
  pceBack : ∀ circuitId entry, st.pce circuitId = some entry → entry.sizeBytes.toNat = entry.charged
  srsBack : ∀ circuitId charged, st.srs circuitId = some charged →
    ((st.srsFile circuitId).getD 0).toNat = charged

theorem accounted_new {totalBytes : UInt64} {srsFile : CircuitId → Option UInt64} :
    Accounted (new totalBytes srsFile) 0 where
  balance := by simp [new, live, pending, charged, pceCharge, srsCharge]
  adjusting := rfl
  asked := by simp [new]
  pceBack := by simp [new]
  srsBack := by simp [new]

theorem Accounted.balanced {st : Memory} (accounted : Accounted st 0) : Balanced st where
  __ := accounted
  used := by
    intro calm
    have balance := accounted.balance
    have none : st.pending = 0 := by simp [pending, calm.undoing]
    omega
  live_le := by
    have balance := accounted.balance
    omega

theorem sum_charge_update {Entry : Type} (charge : Option Entry → Nat)
    (cache : CircuitId → Option Entry) (circuitId : CircuitId) (entry : Option Entry) :
    ∑ other, charge (update cache circuitId entry other) + charge (cache circuitId) =
      ∑ other, charge (cache other) + charge entry := by
  have pointwise : (fun other => charge (update cache circuitId entry other)) =
      update (fun other => charge (cache other)) circuitId (charge entry) := by
    funext other
    exact Function.apply_update (fun _ => charge) cache circuitId entry other
  rw [pointwise]
  exact Contract.sum_update (fun other => charge (cache other)) circuitId (charge entry)

section Rules

variable {st : Memory} {inHand : Nat}
variable {amount : UInt64} {circuitId : CircuitId}

variable {r : MemoryReservation}

theorem Accounted.removed (accounted : Accounted st inHand) (held : r ∈ st.reservations) :
    Accounted (st.removed r) (r.remaining.toNat + inHand) where
  __ := accounted
  balance := by
    have parts : r.remaining.toNat + _ = st.live :=
      sum_map_erase (fun r => r.remaining.toNat) held
    have balance := accounted.balance
    show st.usedBytes.toNat = ((st.reservations.erase r).map fun r => r.remaining.toNat).sum +
      st.pending + st.charged + (r.remaining.toNat + inHand)
    omega
  asked := fun other member => accounted.asked other (mem_of_mem_erase member)

theorem Accounted.reserved (accounted : Accounted st (r.remaining.toNat + inHand))
    (asked : r.holder.asksFor r.remaining = true) :
    Accounted { st with reservations := r :: st.reservations } inHand :=
  { accounted with
    balance := by
      have balance := accounted.balance
      show st.usedBytes.toNat = (r.remaining.toNat + st.live) + st.pending + st.charged + inHand
      omega
    asked := forall_mem_cons.mpr ⟨asked, accounted.asked⟩ }

theorem Accounted.added (accounted : Accounted st inHand)
    (fits : st.usedBytes.toNat + amount.toNat < 2 ^ 64) :
    Accounted { st with usedBytes := st.usedBytes + amount } (amount.toNat + inHand) :=
  { accounted with
    balance := by
      have balance := accounted.balance
      show (st.usedBytes + amount).toNat = st.live + st.pending + st.charged +
        (amount.toNat + inHand)
      rw [UInt64.toNat_add]
      omega }

section

variable (accounted : Accounted st (amount.toNat + inHand))
include accounted

theorem Accounted.subtracted : Accounted { st with usedBytes := st.usedBytes - amount } inHand :=
  { accounted with
    balance := by
      have balance := accounted.balance
      have covered : amount ≤ st.usedBytes := by
        rw [UInt64.le_iff_toNat_le]
        omega
      show (st.usedBytes - amount).toNat = st.live + st.pending + st.charged + inHand
      rw [UInt64.toNat_sub_of_le _ _ covered]
      omega }

theorem Accounted.releaseInternal : Accounted (st.releaseInternal amount) inHand := by
  unfold Memory.releaseInternal
  split
  case isTrue zero =>
    subst zero
    rw [UInt64.toNat_zero, zero_add] at accounted
    exact accounted
  case isFalse => exact accounted.subtracted

theorem Accounted.failed : Accounted { st with undoing := amount :: st.undoing } inHand :=
  { accounted with
    balance := by
      have balance := accounted.balance
      show st.usedBytes.toNat = st.live + (amount.toNat + st.pending) + st.charged + inHand
      omega }

end

variable (accounted : Accounted st inHand)
include accounted

theorem Accounted.resumed (waiting : amount ∈ st.undoing) :
    Accounted { st with undoing := st.undoing.erase amount } (amount.toNat + inHand) :=
  { accounted with
    balance := by
      have parts : _ = st.pending := sum_map_erase UInt64.toNat waiting
      have balance := accounted.balance
      show st.usedBytes.toNat = st.live + ((st.undoing.erase amount).map UInt64.toNat).sum +
        st.charged + (amount.toNat + inHand)
      omega }

theorem Accounted.setPce {entry : Option PceCacheEntry} {kept : Nat}
    (moved : pceCharge (st.pce circuitId) + inHand = pceCharge entry + kept)
    (tracked : ∀ cached, entry = some cached → cached.sizeBytes.toNat = cached.charged) :
    Accounted { st with pce := update st.pce circuitId entry } kept :=
  { accounted with
    balance := by
      have sums := sum_charge_update pceCharge st.pce circuitId entry
      have balance := accounted.balance
      show st.usedBytes.toNat = st.live + st.pending + (∑ other, pceCharge (update st.pce circuitId
        entry other) + ∑ other, srsCharge (st.srs other)) + kept
      simp only [charged] at balance
      omega
    pceBack := (forall_update_iff st.pce fun _ found => ∀ cached, found = some cached →
      cached.sizeBytes.toNat = cached.charged).mpr
        ⟨tracked, fun other _ => accounted.pceBack other⟩ }

/-- `into_permanent`: the entry is charged what the call has in hand. -/
theorem Accounted.cachePce {sizeBytes : UInt64} (free : ¬(st.pce circuitId).isSome = true)
    (tracked : sizeBytes.toNat = inHand) :
    Accounted (st.cachePce circuitId sizeBytes inHand) 0 := by
  refine accounted.setPce ?_ ?_
  · rw [Option.not_isSome_iff_eq_none.mp free]
    exact Nat.add_comm 0 inHand
  · rintro entry ⟨⟩
    exact tracked

theorem Accounted.setSrs {entry : Option Nat} {kept : Nat}
    (moved : srsCharge (st.srs circuitId) + inHand = srsCharge entry + kept)
    (tracked : ∀ bytes, entry = some bytes → ((st.srsFile circuitId).getD 0).toNat = bytes) :
    Accounted { st with srs := update st.srs circuitId entry } kept :=
  { accounted with
    balance := by
      have sums := sum_charge_update srsCharge st.srs circuitId entry
      have balance := accounted.balance
      show st.usedBytes.toNat = st.live + st.pending + (∑ other, pceCharge (st.pce other) +
        ∑ other, srsCharge (update st.srs circuitId entry other)) + kept
      simp only [charged] at balance
      omega
    srsBack := (forall_update_iff st.srs fun other found => ∀ bytes, found = some bytes →
      ((st.srsFile other).getD 0).toNat = bytes).mpr
        ⟨tracked, fun other _ => accounted.srsBack other⟩ }

end Rules

section Calls

variable {st : Memory} {r : MemoryReservation} {circuitId : CircuitId}
variable {amount : UInt64}

variable (accounted : Accounted st 0)
include accounted

theorem Accounted.dropReservation (held : r ∈ st.reservations) :
    Accounted (st.dropReservation r) 0 :=
  (accounted.removed held).releaseInternal

theorem Accounted.attempt {holder : Holder} (asked : holder.asksFor amount = true)
    (fits : st.usedBytes.toNat + amount.toNat < 2 ^ 64) :
    Accounted (st.attempt holder amount) 0 := by
  unfold Memory.attempt
  split
  case isTrue zero =>
    subst zero
    exact Accounted.reserved (r := ⟨holder, 0⟩) accounted asked
  case isFalse =>
    have added := accounted.added fits
    dsimp only
    split
    · exact Accounted.reserved (r := ⟨holder, amount⟩) added asked
    · exact added.failed

theorem Accounted.undo (waiting : amount ∈ st.undoing) : Accounted (st.undo amount) 0 :=
  (accounted.resumed waiting).subtracted

section

variable (held : r ∈ st.reservations)
include held

theorem Accounted.release (proof : r.holder = .proof) (covered : amount ≤ r.remaining) :
    Accounted (st.release r amount) 0 := by
  unfold Memory.release
  split
  case isTrue => exact accounted
  case isFalse =>
    have parts : r.remaining.toNat + 0 = (r.remaining - amount).toNat + amount.toNat := by
      have order := UInt64.le_iff_toNat_le.mp covered
      rw [UInt64.toNat_sub_of_le _ _ covered]
      omega
    have taken := accounted.removed held
    rw [parts] at taken
    have kept := Accounted.reserved (r := { r with remaining := r.remaining - amount }) taken
      (by rw [proof]; rfl)
    exact kept.releaseInternal

theorem Accounted.insertPce {size : UInt64} (holder : r.holder = .pceInsert circuitId size) :
    Accounted (st.insertPce r circuitId size) 0 := by
  unfold Memory.insertPce
  split
  case isTrue => exact accounted.dropReservation held
  case isFalse free =>
    have asked : r.remaining = size := by
      simpa [holder, Holder.asksFor] using accounted.asked r held
    exact (accounted.removed held).cachePce free (by rw [asked, add_zero])

theorem Accounted.loadPce {fileSize actualSize : UInt64}
    (holder : r.holder = .pceLoad circuitId fileSize)
    (agree : (st.pce circuitId).isSome = true ∨ actualSize = fileSize ∨
      (fileSize < actualSize ∧
        st.usedBytes.toNat + (actualSize - fileSize).toNat ≤ st.totalBytes.toNat)) :
    Accounted (st.loadPce r circuitId fileSize actualSize) 0 := by
  unfold Memory.loadPce
  split
  case isTrue => exact accounted.dropReservation held
  case isFalse free =>
    have taken := accounted.removed held
    have asked : r.remaining = fileSize := by
      simpa [holder, Holder.asksFor] using accounted.asked r held
    rcases agree with cached | rfl | ⟨larger, room⟩
    · exact absurd cached free
    · have tracked : (max actualSize actualSize).toNat = r.remaining.toNat + 0 := by
        rw [UInt64.toNat_max, max_self, asked, add_zero]
      simpa using taken.cachePce free tracked
    · have bounded : st.totalBytes.toNat < 2 ^ 64 := st.totalBytes.toNat_lt
      have smaller : st.usedBytes.toNat + (actualSize - fileSize).toNat < 2 ^ 64 := by omega
      have fits : st.usedBytes + (actualSize - fileSize) ≤ st.totalBytes := by
        grind [UInt64.le_iff_toNat_le, UInt64.toNat_add]
      have whole : (max actualSize fileSize).toNat =
          (actualSize - fileSize).toNat + (r.remaining.toNat + 0) := by
        rw [UInt64.toNat_max, asked, UInt64.toNat_sub_of_le _ _ (UInt64.le_of_lt larger)]
        omega
      have cached := (taken.added smaller).cachePce free whole
      rw [if_pos larger, if_pos fits, add_comm r.remaining.toNat]
      exact cached

end

theorem Accounted.evictPce (circuitId : CircuitId) (inUse : Bool) :
    Accounted (st.evictPce circuitId inUse) 0 := by
  unfold Memory.evictPce
  split
  case h_1 => exact accounted
  case h_2 entry cached =>
    cases inUse with
    | true => exact accounted
    | false =>
      have moved : pceCharge (st.pce circuitId) + 0 = pceCharge none + (entry.sizeBytes.toNat + 0) := by
        rw [cached, accounted.pceBack circuitId entry cached]
        exact (Nat.zero_add _).symm
      exact (accounted.setPce moved nofun).releaseInternal

theorem Accounted.ensureLoaded (held : r ∈ st.reservations)
    (agree : (st.srs circuitId).isSome = true ∨ st.srsFile circuitId = none ∨
      st.srsFile circuitId = some r.remaining) :
    Accounted (st.ensureLoaded r circuitId) 0 := by
  unfold Memory.ensureLoaded
  split
  case isTrue => exact accounted.dropReservation held
  case isFalse free =>
    split
    case h_1 => exact accounted.dropReservation held
    case h_2 size found =>
      rcases agree with loaded | missing | file
      · exact absurd loaded free
      · exact absurd (found.symm.trans missing) nofun
      · refine (accounted.removed held).setSrs ?_ ?_
        · rw [show (st.removed r).srs circuitId = none from Option.not_isSome_iff_eq_none.mp free]
          exact Nat.add_comm 0 _
        · rintro bytes ⟨⟩
          rw [show (st.removed r).srsFile circuitId = some r.remaining from file]
          rfl

theorem Accounted.evictSrs (circuitId : CircuitId) (inUse : Bool) :
    Accounted (st.evictSrs circuitId inUse) 0 := by
  unfold Memory.evictSrs
  split
  case h_1 => exact accounted
  case h_2 bytes cached =>
    cases inUse with
    | true => exact accounted
    | false =>
      have moved : srsCharge (st.srs circuitId) + 0 =
          srsCharge none + (((st.srsFile circuitId).getD 0).toNat + 0) := by
        rw [cached, accounted.srsBack circuitId bytes cached]
        exact (Nat.zero_add _).symm
      exact (accounted.setSrs moved nofun).releaseInternal

theorem Accounted.replaceFile (unloaded : st.srs circuitId = none) (size : Option UInt64) :
    Accounted { st with srsFile := update st.srsFile circuitId size } 0 where
  __ := accounted
  srsBack := by
    intro other bytes cached
    have apart : other ≠ circuitId := by
      grind
    show ((update st.srsFile circuitId size other).getD 0).toNat = bytes
    rw [Function.update_of_ne apart]
    exact accounted.srsBack other bytes cached

end Calls

theorem Accounted.step {st next : Memory} {action : Action} (accounted : Accounted st 0)
    (agree : st.SizesAgree action) (stepped : st.step action = some next) :
    Accounted next 0 := by
  unfold Memory.step at stepped
  cases action with
  | attempt holder amount =>
    obtain ⟨asked, rfl⟩ := Option.ite_some_none_eq_some.mp stepped
    exact accounted.attempt asked agree
  | undo amount =>
    obtain ⟨waiting, rfl⟩ := Option.ite_some_none_eq_some.mp stepped
    exact accounted.undo waiting
  | release r amount =>
    obtain ⟨⟨held, proof⟩, rfl⟩ := Option.ite_some_none_eq_some.mp stepped
    exact accounted.release held proof agree
  | drop r =>
    obtain ⟨held, rfl⟩ := Option.ite_some_none_eq_some.mp stepped
    exact accounted.dropReservation held
  | insertPce r =>
    dsimp only at stepped
    split at stepped
    case h_1 circuitId size holder =>
      obtain ⟨⟨held, -⟩, rfl⟩ := Option.ite_some_none_eq_some.mp stepped
      exact accounted.insertPce held holder
    case h_2 => exact nomatch stepped
  | loadPce r actualSize =>
    dsimp only at stepped
    split at stepped
    case h_1 circuitId fileSize holder =>
      obtain ⟨⟨held, -⟩, rfl⟩ := Option.ite_some_none_eq_some.mp stepped
      simp only [SizesAgree, holder] at agree
      exact accounted.loadPce held holder agree
    case h_2 => exact nomatch stepped
  | settle =>
    rw [accounted.adjusting] at stepped
    exact nomatch stepped
  | evictPce circuitId inUse =>
    obtain ⟨-, rfl⟩ := Option.ite_some_none_eq_some.mp stepped
    exact accounted.evictPce circuitId inUse
  | ensureLoaded r =>
    dsimp only at stepped
    split at stepped
    case h_1 circuitId holder =>
      obtain ⟨held, rfl⟩ := Option.ite_some_none_eq_some.mp stepped
      simp only [SizesAgree, holder] at agree
      exact accounted.ensureLoaded held agree
    case h_2 => exact nomatch stepped
  | evictSrs circuitId inUse =>
    cases stepped
    exact accounted.evictSrs circuitId inUse
  | replaceFile circuitId size =>
    cases stepped
    exact accounted.replaceFile agree size

/-- While the sizes agree, the counter is the live reservations with the charges of the caches in
every state in which no attempt is half done, and every eviction gives back its charge. -/
theorem budget_balances (totalBytes : UInt64) (srsFile : CircuitId → Option UInt64)
    (actions : List Action) (st : Memory)
    (agree : RunsUnder step SizesAgree (new totalBytes srsFile) actions)
    (ran : run step (new totalBytes srsFile) actions = some st) : Balanced st := by
  have kept (st : Memory) (action : Action) (next : Memory) (accounted : Accounted st 0)
      (agree : st.SizesAgree action) (stepped : st.step action = some next) :
      Accounted next 0 := accounted.step agree stepped
  exact (run_invariant kept accounted_new agree ran).balanced

def sampleFiles : CircuitId → Option UInt64
  | .porep32G => some 40
  | _ => none

def sampleActions : List Action :=
  [.attempt .proof 100, .attempt (.pceLoad .porep32G 60) 60,
    .loadPce ⟨.pceLoad .porep32G 60, 60⟩ 60, .attempt (.srsLoad .porep32G) 40,
    .release ⟨.proof, 100⟩ 30, .attempt .proof 200, .ensureLoaded ⟨.srsLoad .porep32G, 40⟩,
    .undo 200, .evictPce .porep32G false]

theorem budget_balances_sample :
    RunsUnder step SizesAgree (new 256 sampleFiles) sampleActions ∧
      ∃ st, run step (new 256 sampleFiles) sampleActions = some st ∧ Balanced st ∧
        st.usedBytes = 110 := by
  have agree : RunsUnder step SizesAgree (new 256 sampleFiles) sampleActions := by
    decide
  obtain ⟨st, ran⟩ := Option.isSome_iff_exists.mp
    (rfl : (run step (new 256 sampleFiles) sampleActions).isSome = true)
  refine ⟨agree, st, ran, budget_balances 256 sampleFiles sampleActions st agree ran, ?_⟩
  have used : (run step (new 256 sampleFiles) sampleActions).map usedBytes = some 110 := rfl
  rw [ran] at used
  exact Option.some.inj used

def reload : List Action :=
  [.attempt (.pceLoad .porep32G 176) 176, .loadPce ⟨.pceLoad .porep32G 176, 176⟩ 60,
    .evictPce .porep32G false]

/-- With nothing reserved and nothing cached the counter is below zero. -/
theorem reload_wraps :
    ∃ st, run step (new 1000 fun _ => none) reload = some st ∧ st.Calm ∧ st.live = 0 ∧
      st.charged = 0 ∧ st.usedBytes.toNat = 2 ^ 64 - 116 ∧ ¬Balanced st := by
  obtain ⟨st, ran⟩ := Option.isSome_iff_exists.mp
    (rfl : (run step (new 1000 fun _ => none) reload).isSome = true)
  have values : (run step (new 1000 fun _ => none) reload).map (fun st =>
      (st.undoing, st.adjusting, st.live, st.charged, st.usedBytes.toNat)) =
        some ([], none, 0, 0, 2 ^ 64 - 116) := by
    decide
  rw [ran] at values
  simp only [Option.map_some, Option.some.injEq, Prod.mk.injEq] at values
  obtain ⟨undoing, adjusting, live, charged, used⟩ := values
  refine ⟨st, ran, ⟨undoing, adjusting⟩, live, charged, used, fun balanced => ?_⟩
  have equal := balanced.used ⟨undoing, adjusting⟩
  omega

/-- It is no accident of the sizes: a circuit that was saved, loaded and evicted gives back 116
bytes more than its load has taken. -/
theorem saved_circuit_overpays {Scalar : Type} [ByteCodec.FixedSize Scalar]
    (pce : Pce.PreCompiledCircuit Scalar) (file : List UInt8)
    (saved : Pce.saveToDisk pce = .ok file) (fits : file.length < 2 ^ 64) (st : Memory)
    (r : MemoryReservation) (circuitId : CircuitId) (free : st.pce circuitId = none) :
    ((st.loadPce r circuitId (.ofNat file.length) (.ofNat pce.memoryBytes)).evictPce circuitId
      false).usedBytes = st.usedBytes - 116 - .ofNat file.length := by
  obtain ⟨written, wrote, length⟩ := Pce.saveToDisk_length pce
  obtain rfl : written = file := Except.ok.inj (wrote.symm.trans saved)
  have fileSize : (UInt64.ofNat written.length).toNat = written.length :=
    UInt64.toNat_ofNat_of_lt' fits
  have actualSize : (UInt64.ofNat pce.memoryBytes).toNat = pce.memoryBytes :=
    UInt64.toNat_ofNat_of_lt' (lt_of_le_of_lt (by omega) fits)
  have smaller : UInt64.ofNat pce.memoryBytes < UInt64.ofNat written.length := by
    rw [UInt64.lt_iff_toNat_lt]
    omega
  have excess : UInt64.ofNat written.length - UInt64.ofNat pce.memoryBytes = 116 := by
    apply UInt64.toNat.inj
    rw [UInt64.toNat_sub_of_le _ _ (UInt64.le_of_lt smaller), fileSize, actualSize, length]
    exact Nat.add_sub_cancel_left ..
  have tracked : max (UInt64.ofNat pce.memoryBytes) (UInt64.ofNat written.length) =
      UInt64.ofNat written.length := by
    apply UInt64.toNat.inj
    rw [UInt64.toNat_max]
    omega
  have positive : UInt64.ofNat written.length ≠ 0 := by
    intro zero
    rw [zero, UInt64.toNat_zero] at fileSize
    omega
  simp only [loadPce, evictPce, cachePce, releaseInternal, free, Option.isSome_none,
    Bool.false_eq_true, if_false, if_neg (UInt64.lt_asymm smaller), if_pos smaller, excess,
    tracked, Function.update_self, if_neg positive]
  rfl

/-- The reservation is of the size of the file, and nothing else is reserved. -/
theorem saved_circuit_overpays_small :
    let pce := Pce.smallCircuit.toPreCompiledCircuit
    ∃ file st, Pce.saveToDisk pce = .ok file ∧ file.length = 308 ∧
      (new 1000 fun _ => none).step (.attempt (.pceLoad .porep32G 308) 308) = some st ∧
      ((st.loadPce ⟨.pceLoad .porep32G 308, 308⟩ .porep32G (.ofNat file.length)
        (.ofNat pce.memoryBytes)).evictPce .porep32G false).usedBytes.toNat = 2 ^ 64 - 116 := by
  intro pce
  obtain ⟨file, saved, size⟩ := Pce.saveToDisk_length pce
  have length : file.length = 308 := size
  refine ⟨file, _, saved, length, rfl, ?_⟩
  rw [saved_circuit_overpays pce file saved (by rw [length]; decide) _ _ _ rfl, length]
  rfl

end Memory

end Curio.Cuzk
