import Curio.Harmony.TaskEngine

/-! What runs on a machine fits its resources and its limiters. -/

namespace Curio.Harmony

open GoRuntime StepMachine List

section Sums

variable {n : Nat} {τ M : Type} [AddCommMonoid M]

def used (weight : Fin n → M) (running : List (Fin n × τ)) : M :=
  (running.map fun task => weight task.1).sum

def usedBefore (weight : Fin n → M) (running : List (Fin n × τ)) (next : Nat) : M :=
  used weight (running.filter fun task => task.1.val < next)

variable (weight : Fin n → M) (running : List (Fin n × τ))

theorem used_append (more : List (Fin n × τ)) :
    used weight (running ++ more) = used weight running + used weight more := by
  simp [used]

theorem used_started (h : Fin n) (tasks : List τ) :
    used weight (tasks.map fun task => (h, task)) = tasks.length • weight h := by
  simp [used, Function.comp_def]

theorem usedBefore_zero : usedBefore weight running 0 = 0 := by
  simp [usedBefore, used]

theorem usedBefore_all {next : Nat} (all : n ≤ next) :
    usedBefore weight running next = used weight running := by
  have every : running.filter (fun task => decide (task.1.val < next)) = running :=
    filter_eq_self.mpr fun task _ => decide_eq_true (task.1.isLt.trans_le all)
  rw [usedBefore, every]

theorem usedBefore_succ (h : Fin n) :
    usedBefore weight running (h.val + 1) =
      usedBefore weight running h.val + (running.countP fun task => task.1 = h) • weight h := by
  induction running with
  | nil => simp [usedBefore]
  | cons task rest ih =>
    simp only [usedBefore, used] at ih ⊢
    rcases lt_trichotomy task.1.val h.val with below | same | above
    · have apart : task.1 ≠ h := fun equal => below.ne (congrArg Fin.val equal)
      rw [filter_cons_of_pos (by simpa using below.trans (Nat.lt_succ_self _)),
        filter_cons_of_pos (by simpa using below), countP_cons_of_neg (by simpa using apart),
        map_cons, sum_cons, map_cons, sum_cons, ih, add_assoc]
    · have equal : task.1 = h := Fin.ext same
      rw [filter_cons_of_pos (by simp [equal]),
        filter_cons_of_neg (by simp [equal]), countP_cons_of_pos (by simpa using equal),
        map_cons, sum_cons, ih, equal, succ_nsmul]
      exact add_left_comm _ _ _ |>.trans (congrArg _ (add_comm _ _))
    · have apart : task.1 ≠ h := fun equal => above.ne' (congrArg Fin.val equal)
      rw [filter_cons_of_neg (by simp; omega), filter_cons_of_neg (by simp; omega),
        countP_cons_of_neg (by simpa using apart), ih]

variable [PartialOrder M] [IsOrderedAddMonoid M] {weight running}

variable {less : List (Fin n × τ)}

variable (sub : less.Sublist running) (nonneg : ∀ h, 0 ≤ weight h)
include sub nonneg

theorem used_sublist : used weight less ≤ used weight running := by
  refine (sub.map _).sum_le_sum fun amount member => ?_
  grind

theorem usedBefore_sublist (next : Nat) :
    usedBefore weight less next ≤ usedBefore weight running next :=
  used_sublist (sub.filter _) nonneg

end Sums

variable {left cost : ℚ} {before : Int} {more : Nat} {tIDs : List TaskId}

section Capacity

variable {h : TaskTypeDetails} {r : Available} {headroom : Int}

structure HeadroomOf (left cost : ℚ) (headroom before : Int) : Prop where
  some : 1 ≤ headroom
  le : headroom ≤ before
  fits : headroom * cost ≤ left

theorem HeadroomOf.fits_of_le {fewer : Int} (room : HeadroomOf left cost headroom before)
    (less : fewer ≤ headroom) (nonneg : 0 ≤ cost) :
    fewer * cost ≤ left := by
  have smaller : (fewer : ℚ) ≤ headroom := by exact_mod_cast less
  exact (mul_le_mul_of_nonneg_right smaller nonneg).trans room.fits

theorem HeadroomOf.quotient (nonneg : 0 ≤ cost) (enough : cost ≤ left) (some : 1 ≤ before) :
    HeadroomOf left cost
      (if cost > 0 ∧ left / cost < before then ⌊left / cost⌋ else before) before := by
  rcases nonneg.eq_or_lt with zero | positive
  · rw [if_neg fun both => (zero ▸ both.1).ne rfl]
    refine ⟨some, le_refl _, ?_⟩
    rw [← zero, mul_zero]
    exact zero ▸ enough
  · by_cases smaller : left / cost < before
    · rw [if_pos ⟨positive, smaller⟩]
      constructor
      · apply Int.le_floor.mpr
        rw [Int.cast_one, le_div_iff₀ positive, one_mul]
        exact enough
      · exact (Int.floor_lt.mpr smaller).le
      · exact (le_div_iff₀ positive).mp (Int.floor_le _)
    · rw [if_neg fun both => smaller both.2]
      exact ⟨some, le_refl _, (le_div_iff₀ positive).mp (not_lt.mp smaller)⟩

theorem HeadroomOf.cpu (enough : (h.cost.cpu : Int) ≤ r.cpu) (some : 1 ≤ headroom) :
    HeadroomOf r.cpu h.cost.cpu (cpuHeadroom h r headroom) headroom := by
  have nonneg : 0 ≤ r.cpu := (Int.natCast_nonneg _).trans enough
  have floor : r.cpu.tdiv h.cost.cpu = ⌊(r.cpu : ℚ) / h.cost.cpu⌋ := by
    rw [Int.tdiv_eq_ediv_of_nonneg nonneg, Rat.floor_intCast_div_natCast]
  have taken : HeadroomOf r.cpu h.cost.cpu _ headroom :=
    .quotient (Nat.cast_nonneg _) (by exact_mod_cast enough) some
  simpa only [cpuHeadroom, floor, Int.floor_lt, Nat.cast_pos] using taken

theorem HeadroomOf.ram (enough : h.cost.ram ≤ r.ram) (some : 1 ≤ headroom) :
    HeadroomOf r.ram h.cost.ram (ramHeadroom h r headroom) headroom := by
  have floor : ((r.ram / h.cost.ram : Nat) : Int) = ⌊(r.ram : ℚ) / h.cost.ram⌋ :=
    (Rat.floor_natCast_div_natCast _ _).symm
  have taken : HeadroomOf r.ram h.cost.ram _ headroom :=
    .quotient (Nat.cast_nonneg _) (by exact_mod_cast enough) some
  simpa only [ramHeadroom, floor, Int.floor_lt, Nat.cast_pos] using taken

theorem HeadroomOf.gpu (enough : h.cost.gpu ≤ r.gpu) (some : 1 ≤ headroom) :
    HeadroomOf r.gpu h.cost.gpu (gpuHeadroom h r headroom) headroom :=
  .quotient h.cost.gpu_nonneg enough some

structure HasRoomFor (h : TaskTypeDetails) (r : Available) (headroom : Int) : Prop where
  some : 1 ≤ headroom
  cpu : headroom * (h.cost.cpu : ℚ) ≤ r.cpu
  ram : headroom * (h.cost.ram : ℚ) ≤ r.ram
  gpu : headroom * h.cost.gpu ≤ r.gpu

theorem assertMachineHasCapacity_ok {maxHeadroom : Nat} {atMax hasCapacity : Bool}
    (positive : 0 < maxHeadroom)
    (returned : assertMachineHasCapacity maxHeadroom h r atMax hasCapacity = .ok headroom) :
    atMax = false ∧ HasRoomFor h r headroom := by
  unfold assertMachineHasCapacity at returned
  split_ifs at returned with full noCpu noRam noGpu noStorage <;> cases returned
  have cpu : HeadroomOf r.cpu h.cost.cpu (cpuHeadroom h r maxHeadroom) maxHeadroom :=
    .cpu (by omega) (by omega)
  have ram : HeadroomOf r.ram h.cost.ram _ (cpuHeadroom h r maxHeadroom) :=
    .ram (by omega) cpu.some
  have gpu : HeadroomOf r.gpu h.cost.gpu _ (ramHeadroom h r (cpuHeadroom h r maxHeadroom)) :=
    .gpu (sub_nonneg.mp (not_lt.mp noGpu)) ram.some
  refine ⟨Bool.eq_false_iff.mpr full, gpu.some, ?_, ?_, gpu.fits⟩
  · exact cpu.fits_of_le (gpu.le.trans ram.le) (Nat.cast_nonneg _)
  · exact ram.fits_of_le gpu.le (Nat.cast_nonneg _)

end Capacity

section Invariant

variable {setup : EngineSetup} {running less : List (Handler setup × TaskId)}
variable {h : Handler setup}

def cpuCost (h : Handler setup) : ℚ := (setup.details h).cost.cpu

def gpuCost (h : Handler setup) : ℚ := (setup.details h).cost.gpu

def ramCost (h : Handler setup) : ℚ := (setup.details h).cost.ram

theorem cpuCost_nonneg (h : Handler setup) : 0 ≤ cpuCost h := Nat.cast_nonneg _

theorem gpuCost_nonneg (h : Handler setup) : 0 ≤ gpuCost h := (setup.details h).cost.gpu_nonneg

theorem ramCost_nonneg (h : Handler setup) : 0 ≤ ramCost h := Nat.cast_nonneg _

def sharers (running : List (Handler setup × TaskId)) (counter : Nat) : Nat :=
  running.countP fun task => (setup.details task.1).max = counter

structure Fits (running : List (Handler setup × TaskId)) (h : Handler setup) (more : Nat) :
    Prop where
  cpu : used cpuCost running + more * cpuCost h ≤ setup.resources.cpu
  gpu : used gpuCost running + more * gpuCost h ≤ setup.resources.gpu
  ram : used ramCost running + more * ramCost h ≤ setup.resources.ram

def UnderLimit (running : List (Handler setup × TaskId)) (h : Handler setup) (more : Nat) : Prop :=
  0 < EngineState.limit h → (sharers running (setup.details h).max : Int) + more ≤
    EngineState.limit h

structure Within (running : List (Handler setup × TaskId)) : Prop where
  cpu : used cpuCost running ≤ setup.resources.cpu
  gpu : used gpuCost running ≤ setup.resources.gpu
  ram : used ramCost running ≤ setup.resources.ram
  limits : ∀ counter, 0 < setup.limits counter →
    (sharers running counter : Int) ≤ setup.limits counter

structure ReadSoFar (running : List (Handler setup × TaskId)) (next : Nat) (tmp : Available) :
    Prop where
  cpu : tmp.cpu + usedBefore cpuCost running next ≤ setup.resources.cpu
  gpu : tmp.gpu + usedBefore gpuCost running next ≤ setup.resources.gpu
  ram : tmp.ram = 0 ∨ tmp.ram + usedBefore ramCost running next ≤ setup.resources.ram

def PhaseSound (running : List (Handler setup × TaskId)) : Phase setup → Prop
  | .idle => True
  | .reading _ next tmp => ReadSoFar running next tmp
  | .accepting job maxAcceptable =>
    1 ≤ maxAcceptable ∧ Fits running job.handler maxAcceptable.toNat ∧
      UnderLimit running job.handler 1
  | .claiming job _ maxAcceptable =>
    Fits running job.handler maxAcceptable.toNat ∧
      UnderLimit running job.handler maxAcceptable.toNat
  | .claimed job tIDs =>
    Fits running job.handler tIDs.length ∧ UnderLimit running job.handler tIDs.length

structure Counted (state : EngineState setup) : Prop where
  this : ∀ h, state.currentThis h = state.running.countP fun task => task.1 = h
  shared : ∀ counter, state.current counter = sharers state.running counter

structure EngineSound (state : EngineState setup) : Prop where
  counted : Counted state
  within : Within state.running
  phase : PhaseSound state.running state.phase

theorem Fits.fewer {fewer : Nat} (fits : Fits running h more) (le : fewer ≤ more) :
    Fits running h fewer := by
  have smaller : (fewer : ℚ) ≤ more := by exact_mod_cast le
  have scale : ∀ cost : ℚ, 0 ≤ cost → fewer * cost ≤ more * cost := fun cost nonneg =>
    mul_le_mul_of_nonneg_right smaller nonneg
  constructor
  · exact (add_le_add_right (scale _ (cpuCost_nonneg h)) _).trans fits.cpu
  · exact (add_le_add_right (scale _ (gpuCost_nonneg h)) _).trans fits.gpu
  · exact (add_le_add_right (scale _ (ramCost_nonneg h)) _).trans fits.ram

theorem UnderLimit.fewer {fewer : Nat} (under : UnderLimit running h more) (le : fewer ≤ more) :
    UnderLimit running h fewer := by
  intro limited
  have bound := under limited
  omega

section

variable (sub : less.Sublist running)
include sub

theorem sharers_sublist (counter : Nat) :
    sharers less counter ≤ sharers running counter := sub.countP_le

theorem used_le {weight : Handler setup → ℚ} {total rest : ℚ} (nonneg : ∀ h, 0 ≤ weight h)
    (bound : used weight running + rest ≤ total) :
    used weight less + rest ≤ total :=
  (add_le_add_left (used_sublist sub nonneg) rest).trans bound

theorem Fits.sublist (fits : Fits running h more) : Fits less h more where
  cpu := used_le sub cpuCost_nonneg fits.cpu
  gpu := used_le sub gpuCost_nonneg fits.gpu
  ram := used_le sub ramCost_nonneg fits.ram

theorem UnderLimit.sublist (under : UnderLimit running h more) : UnderLimit less h more := by
  intro limited
  have bound := under limited
  have fewer := sharers_sublist sub (setup.details h).max
  omega

theorem Within.sublist (within : Within running) : Within less where
  cpu := (used_sublist sub cpuCost_nonneg).trans within.cpu
  gpu := (used_sublist sub gpuCost_nonneg).trans within.gpu
  ram := (used_sublist sub ramCost_nonneg).trans within.ram
  limits counter limited := by
    have bound := within.limits counter limited
    have fewer := sharers_sublist sub counter
    omega

theorem ReadSoFar.sublist {next : Nat} {tmp : Available} (read : ReadSoFar running next tmp) :
    ReadSoFar less next tmp where
  cpu := (add_le_add_right (usedBefore_sublist sub cpuCost_nonneg next) _).trans read.cpu
  gpu := (add_le_add_right (usedBefore_sublist sub gpuCost_nonneg next) _).trans read.gpu
  ram := read.ram.imp_right (add_le_add_right (usedBefore_sublist sub ramCost_nonneg next) _).trans

theorem PhaseSound.sublist {phase : Phase setup} (sound : PhaseSound running phase) :
    PhaseSound less phase := by
  cases phase with
  | idle => trivial
  | reading job next tmp => exact ReadSoFar.sublist sub sound
  | accepting job maxAcceptable =>
    exact ⟨sound.1, sound.2.1.sublist sub, sound.2.2.sublist sub⟩
  | claiming job tIDs maxAcceptable | claimed job tIDs =>
    exact ⟨sound.1.sublist sub, sound.2.sublist sub⟩

end

theorem countP_started (ofKind : Handler setup → Bool) (h : Handler setup) (tIDs : List TaskId) :
    (tIDs.map fun tID => (h, tID)).countP (fun task => ofKind task.1) =
      if ofKind h then tIDs.length else 0 := by
  grind [countP_eq_length]

theorem Within.start (within : Within running) (fits : Fits running h tIDs.length)
    (under : UnderLimit running h tIDs.length) :
    Within (running ++ tIDs.map fun tID => (h, tID)) := by
  constructor
  · rw [used_append, used_started]
    exact fits.cpu
  · rw [used_append, used_started]
    exact fits.gpu
  · rw [used_append, used_started]
    exact fits.ram
  · intro counter limited
    have others := within.limits counter limited
    rw [sharers, countP_append]
    have more := countP_started (fun kind => decide ((setup.details kind).max = counter)) h tIDs
    rw [more]
    by_cases same : (setup.details h).max = counter
    · subst same
      rw [if_pos (decide_eq_true rfl)]
      exact under limited
    · grind [sharers]

end Invariant

section Reading

variable {setup : EngineSetup} {running : List (Handler setup × TaskId)} {tmp : Available}

theorem ReadSoFar.start : ReadSoFar running 0
    ⟨setup.resources.cpu, setup.resources.gpu, setup.resources.ram⟩ := by
  constructor
  · rw [usedBefore_zero, add_zero, Int.cast_natCast]
  · rw [usedBefore_zero, add_zero]
  · right
    rw [usedBefore_zero, add_zero]

theorem ReadSoFar.next {h : Handler setup} (read : ReadSoFar running h.val tmp) {ct : Int}
    (count : ct = running.countP fun task => task.1 = h) :
    ReadSoFar running (h.val + 1) (tmp.use ct (setup.details h).cost) := by
  subst count
  constructor
  · have bound := read.cpu
    rw [usedBefore_succ, nsmul_eq_mul]
    simp only [Available.use, cpuCost] at bound ⊢
    push_cast
    linarith
  · have bound := read.gpu
    rw [usedBefore_succ, nsmul_eq_mul]
    simp only [Available.use, gpuCost] at bound ⊢
    push_cast
    linarith
  · simp only [Available.use, Int.toNat_natCast]
    split
    · exact .inl rfl
    · rename_i left
      rcases read.ram with zero | bound
      · omega
      · right
        rw [usedBefore_succ, nsmul_eq_mul]
        simp only [ramCost] at bound ⊢
        rw [Nat.cast_sub (by omega)]
        push_cast
        linarith

theorem ReadSoFar.fits {h : Handler setup} {next : Nat} {headroom : Int}
    (read : ReadSoFar running next tmp) (all : setup.handlers.length ≤ next)
    (within : Within running) (room : HasRoomFor (setup.details h) tmp headroom) :
    Fits running h headroom.toNat := by
  have cast : ((headroom.toNat : Nat) : ℚ) = headroom := by
    have nonneg : 0 ≤ headroom := by have some := room.some; omega
    exact_mod_cast Int.toNat_of_nonneg nonneg
  constructor
  · have bound := read.cpu
    have cpu := room.cpu
    rw [usedBefore_all _ _ all] at bound
    rw [cast, cpuCost]
    linarith
  · have bound := read.gpu
    have gpu := room.gpu
    rw [usedBefore_all _ _ all] at bound
    rw [cast, gpuCost]
    linarith
  · have ram := room.ram
    rw [cast, ramCost]
    rcases read.ram with zero | bound
    · rw [zero, Nat.cast_zero] at ram
      have left := within.ram
      linarith
    · rw [usedBefore_all _ _ all] at bound
      linarith

end Reading

section Steps

variable {setup : EngineSetup} {state next : EngineState setup}
variable {maxAcceptable : Int} {job : Job setup}

def EngineState.recovering (state : EngineState setup) : Bool :=
  match state.phase with
  | .accepting job _ => job.source = .recovered
  | _ => false

def AnswersRecovered (state : EngineState setup) : EngineAction setup → Prop
  | .canAccept (.ok tIDs) => state.recovering = true → tIDs.length ≤ 1
  | _ => True

instance (state : EngineState setup) :
    (action : EngineAction setup) → Decidable (AnswersRecovered state action)
  | .canAccept (.ok tIDs) =>
    inferInstanceAs (Decidable (state.recovering = true → tIDs.length ≤ 1))
  | .canAccept (.error _) | .tick _ | .considerWork .. | .recover .. | .readActive |
    .assertCapacity _ | .claim .. | .claimStorage _ | .finish .. => isTrue trivial

section

variable (sound : EngineSound state)
include sound

theorem EngineSound.setPhase {failures} {phase : Phase setup}
    (found : PhaseSound state.running phase) :
    EngineSound { state with storageFailures := failures, phase } :=
  ⟨⟨sound.counted.this, sound.counted.shared⟩, sound.within, found⟩

theorem EngineSound.considerWork (job : Job setup) : EngineSound (state.considerWork job) := by
  unfold EngineState.considerWork
  split
  · exact sound
  · split
    · exact sound
    · exact sound.setPhase ReadSoFar.start

theorem EngineSound.headroom (h : Handler setup) (below : maxAcceptable ≤ state.headroom h) :
    UnderLimit state.running h maxAcceptable.toNat := by
  intro limited
  have all : (sharers state.running (setup.details h).max : Int) ≤ EngineState.limit h :=
    sound.within.limits _ limited
  unfold EngineState.headroom at below
  rw [if_neg (by omega), EngineState.active, sound.counted.shared] at below
  omega

theorem EngineSound.canAccept (reached : state.phase = .accepting job maxAcceptable)
    {answer : Call (List TaskId)} (allowed : AnswersRecovered state (.canAccept answer)) :
    EngineSound (state.canAccept job maxAcceptable answer) := by
  have phase := sound.phase
  rw [reached] at phase
  obtain ⟨some, fits, under⟩ := phase
  unfold EngineState.canAccept
  split
  · exact sound.setPhase trivial
  · exact sound.setPhase trivial
  · rename_i tIDs _
    apply sound.setPhase
    by_cases recovered : job.source = .recovered
    · rw [if_pos recovered]
      have asked : state.recovering = true := by
        grind [EngineState.recovering]
      have short :
    (withoutFailures (state.storageFailures job.handler) state.now tIDs).length ≤ 1 :=
        (length_filter_le _ _).trans (allowed asked)
      exact ⟨fits.fewer (by omega), under.fewer short⟩
    · rw [if_neg recovered]
      constructor
      · apply fits.fewer
        split <;> omega
      · apply sound.headroom
        split <;> omega

end

theorem claim_length {db after : Database} {ownerID : MachineId} {locked accepted : List TaskId}
    {maxAcceptable : Nat}
    (returned : db.claim ownerID tIDs locked maxAcceptable = .ok (accepted, after)) :
    accepted.length ≤ maxAcceptable := by
  simp only [Database.claim] at returned
  split at returned <;> cases returned
  · exact (dedup_sublist _).length_le.trans (length_take_le _ _)

theorem EngineSound.claim (sound : EngineSound state)
    (reached : state.phase = .claiming job tIDs maxAcceptable) (db : Database) (ownerID : MachineId)
    (locked : List TaskId) :
    EngineSound (state.claim job tIDs maxAcceptable db ownerID locked) := by
  have phase := sound.phase
  rw [reached] at phase
  obtain ⟨fits, under⟩ := phase
  unfold EngineState.claim
  split
  · exact sound.setPhase trivial
  · exact sound.setPhase trivial
  · rename_i tasksAccepted _ _ returned
    have few := claim_length returned
    have counted : (if tasksAccepted.length ≠ tIDs.length then tasksAccepted else tIDs).length ≤
        maxAcceptable.toNat := by
      split <;> omega
    exact sound.setPhase ⟨fits.fewer counted, under.fewer counted⟩

theorem Counted.add (counted : Counted state) {h : Handler setup} {n : Int}
    {running : List (Handler setup × TaskId)} {failures} {phase : Phase setup}
    (change : ∀ ofKind : Handler setup → Bool,
      ((running.countP fun task => ofKind task.1 : Nat) : Int) =
        (state.running.countP fun task => ofKind task.1 : Nat) + if ofKind h then n else 0) :
    Counted { state.add h n with running, storageFailures := failures, phase } := by
  constructor
  · intro other
    have counts := change fun kind => decide (kind = other)
    rw [counts, ← counted.this other]
    show Function.update state.currentThis h (state.currentThis h + n) other = _
    by_cases same : h = other <;> grind
  · intro counter
    have counts := change fun kind => decide ((setup.details kind).max = counter)
    rw [sharers]
    have before := counted.shared counter
    rw [sharers] at before
    show Function.update state.current (setup.details h).max (state.active h + n) counter = _
    by_cases same : (setup.details h).max = counter
    · grind [EngineState.active]
    · grind

section

variable (sound : EngineSound state)
include sound

theorem EngineSound.claimStorage (reached : state.phase = .claimed job tIDs)
    (granted : List TaskId) :
    EngineSound (state.claimStorage job tIDs granted) := by
  have phase := sound.phase
  rw [reached] at phase
  obtain ⟨fits, under⟩ := phase
  unfold EngineState.claimStorage
  simp only
  split
  · exact sound.setPhase trivial
  · have few := length_filter_le (fun tID =>
      !(setup.details job.handler).storage || granted.contains tID) tIDs
    refine ⟨?_, sound.within.start (fits.fewer few) (under.fewer few), trivial⟩
    apply sound.counted.add
    intro ofKind
    rw [countP_append, countP_started]
    split <;> simp

theorem EngineSound.finish {handler : Handler setup} {task : TaskId}
    (member : (handler, task) ∈ state.running) :
    EngineSound { state.add handler (-1) with running := state.running.erase (handler, task) } := by
  have sub : (state.running.erase (handler, task)).Sublist state.running := erase_sublist
  refine ⟨?_, sound.within.sublist sub, sound.phase.sublist sub⟩
  apply sound.counted.add
  intro ofKind
  have counts := (perm_cons_erase member).countP_eq fun task => ofKind task.1
  grind

theorem EngineSound.step {action : EngineAction setup} (allowed : AnswersRecovered state action)
    (stepped : state.step action = some next) :
    EngineSound next := by
  have phase := sound.phase
  cases action with
  | tick duration =>
    cases stepped
    exact ⟨⟨sound.counted.this, sound.counted.shared⟩, sound.within, sound.phase⟩
  | considerWork handler bored ids | recover handler id =>
    simp only [EngineState.step] at stepped
    split at stepped <;> cases stepped
    · exact sound.considerWork _
  | readActive =>
    simp only [EngineState.step] at stepped
    split at stepped
    · rename_i job position tmp reached
      rw [reached] at phase
      split at stepped <;> cases stepped
      · rename_i inside
        have read : ReadSoFar state.running (⟨position, inside⟩ : Handler setup).val tmp := phase
        exact sound.setPhase (read.next (sound.counted.this _))
    · cases stepped
  | assertCapacity hasCapacity =>
    simp only [EngineState.step] at stepped
    split at stepped
    · rename_i job position tmp reached
      rw [reached] at phase
      split at stepped
      · cases stepped
      · rename_i all
        split at stepped <;> cases stepped
        · exact sound.setPhase trivial
        · rename_i headroom returned
          obtain ⟨notFull, room⟩ := assertMachineHasCapacity_ok setup.maxHeadroom_pos returned
          refine sound.setPhase ⟨room.some, ?_, ?_⟩
          · exact ReadSoFar.fits phase (by omega) sound.within room
          · intro limited
            have free := of_decide_eq_false notFull
            rw [EngineState.active, sound.counted.shared] at free
            omega
    · cases stepped
  | canAccept answer =>
    simp only [EngineState.step] at stepped
    split at stepped <;> cases stepped
    · rename_i reached
      exact sound.canAccept reached allowed
  | claim db ownerID locked =>
    simp only [EngineState.step] at stepped
    split at stepped <;> cases stepped
    · rename_i reached
      exact sound.claim reached db ownerID locked
  | claimStorage granted =>
    simp only [EngineState.step] at stepped
    split at stepped <;> cases stepped
    · rename_i reached
      exact sound.claimStorage reached granted
  | finish handler task =>
    simp only [EngineState.step] at stepped
    split at stepped <;> cases stepped
    · rename_i member
      exact sound.finish member

end

theorem EngineSound.initial : EngineSound (EngineState.initial : EngineState setup) := by
  refine ⟨⟨fun _ => rfl, fun _ => rfl⟩, ⟨?_, ?_, ?_, ?_⟩, trivial⟩
  · exact Nat.cast_nonneg _
  · exact setup.resources.gpu_nonneg
  · exact Nat.cast_nonneg _
  · exact fun _ limited => limited.le

/-- Where `CanAccept` names no task beside the recovered one, the machine is never over-subscribed:
the running tasks fit its resources, and every limiter counts at most its maximum. -/
theorem engine_within_limits {actions : List (EngineAction setup)} {final : EngineState setup}
    (under : RunsUnder EngineState.step AnswersRecovered .initial actions)
    (ran : StepMachine.run EngineState.step .initial actions = some final) :
    used cpuCost final.running ≤ setup.resources.cpu ∧
    used gpuCost final.running ≤ setup.resources.gpu ∧
    used ramCost final.running ≤ setup.resources.ram ∧
    (∀ h, final.currentThis h = final.running.countP fun task => task.1 = h) ∧
    ∀ counter, 0 < setup.limits counter →
      0 ≤ final.current counter ∧ final.current counter ≤ setup.limits counter := by
  have sound : EngineSound final :=
    run_invariant (fun _ _ _ before => before.step) EngineSound.initial under ran
  have within := sound.within
  refine ⟨within.cpu, within.gpu, within.ram, sound.counted.this, fun counter limited => ?_⟩
  rw [sound.counted.shared]
  exact ⟨Int.natCast_nonneg _, within.limits counter limited⟩

end Steps

def oneAtATime : EngineSetup where
  handlers :=
    [⟨"SDR", ⟨4, 0, le_refl 0, 10⟩, false, 0⟩, ⟨"PoRep", ⟨1, 1 / 2, by norm_num, 5⟩, false, 0⟩]
  limits := fun _ => 1
  resources := ⟨8, 1, zero_le_one, 32⟩
  maxHeadroom := 100
  maxHeadroom_pos := by decide

def poRep : Handler oneAtATime := ⟨1, by decide⟩

def recoverPoRep (answer : List TaskId) : List (EngineAction oneAtATime) :=
  [.recover poRep 7, .readActive, .readActive, .assertCapacity true, .canAccept (.ok answer),
    .claimStorage []]

theorem engine_within_limits_recovered :
    ∃ final, StepMachine.run EngineState.step .initial (recoverPoRep [7]) = some final ∧
      final.running = [(poRep, 7)] ∧ used gpuCost final.running ≤ oneAtATime.resources.gpu ∧
      final.current 0 ≤ 1 := by
  have under : RunsUnder EngineState.step AnswersRecovered .initial (recoverPoRep [7]) := by
    decide +kernel
  have started : (StepMachine.run EngineState.step .initial (recoverPoRep [7])).map
      EngineState.running = some [(poRep, 7)] := by decide +kernel
  obtain ⟨final, ran, running⟩ := Option.map_eq_some_iff.mp started
  have within := engine_within_limits under ran
  exact ⟨final, ran, running, within.2.1, (within.2.2.2.2 0 zero_lt_one).2⟩

/-- A recovered task is not limited by the headroom: an answer that names two tasks starts both. -/
theorem recovered_exceeds_limit :
    oneAtATime.limits 0 = 1 ∧
    (StepMachine.run EngineState.step .initial (recoverPoRep [7, 8])).map
      (fun final => final.current 0) = some 2 := by
  decide +kernel

end Curio.Harmony
