import Curio.Cuzk.Engine

/-! The life of one job.

Of all that the engine holds, a job sees the entries under its id, the requests of that id that are
somewhere in the pipeline and its partitions. On this view alone the phases of a job are told apart,
and the operations that the engine is made of are changes of the view. -/

namespace Curio.Cuzk

open List
open GoRuntime (Bytes)

structure JobView where
  submitted : List ProofRequest
  listeners : Nat
  pending : Option (List Nat)
  received : List (Nat × JobStatus)
  completed : Option JobStatus
  assembler : Option PartitionedJobState
  tally : List Bool
  split : Bool
  troubled : Bool
  arrived : List (Nat × Bytes)
  held : Multiset ProofRequest
  parts : Multiset PartitionWorkItem

/-- The flaws of the engine that a run may show: a batch that is not answered as its members' work
deserves, and a job that is counted again at its next failure. -/
structure Flaws where
  unfair : Bool
  recounts : Bool

variable {message : String} {w : JobView} {i : Nat} {kind : ProofKind}

namespace JobView

def unknown : JobView :=
  ⟨[], 0, none, [], none, none, [], false, false, [], 0, 0⟩

def finish (v : JobView) (status : JobStatus) : JobView :=
  { v with
    tally := v.tally ++ [status.isCompleted]
    pending := none
    received := v.received ++ (v.pending.getD []).map fun sender => (sender, status)
    completed := some status }

variable {Circuit : Type} (lib : Library Circuit) (proves : Circuit → Bytes → Prop)
  (flaws : Flaws)

structure Open (v : JobView) (r : ProofRequest) : Prop where
  submitted : v.submitted = [r]
  pending : v.pending = some (range v.listeners)
  received : v.received = []
  completed : v.completed = none
  tally : v.tally = []

structure Proved (r : ProofRequest) (proofs : List Bytes) : Prop where
  each : Forall₂ proves (lib.circuits r) proofs
  checked : r.proofKind = .poRepSealCommit →
    lib.verifyPorepProof r.vanillaProof proofs.flatten r.sectorNumber r.minerId = .ok true

structure Answers (v : JobView) (r : ProofRequest) (status : JobStatus) : Prop where
  own : ∀ result, status = .completed result →
    v.troubled = false ∧ ∃ proofs, Proved lib proves r proofs ∧
      result = ⟨r.jobId, r.proofKind, proofs.flatten⟩ ∧
      (v.split = true → ∀ i proof, proofs[i]? = some proof → (i, proof) ∈ v.arrived)
  fair : flaws.unfair = false → v.troubled = false → status.isCompleted = true

structure Closed (v : JobView) (r : ProofRequest) (status : JobStatus) : Prop where
  submitted : v.submitted = [r]
  pending : v.pending = none
  received : v.received.map Prod.fst = range v.listeners
  same : ∀ entry ∈ v.received,
    entry.2 = status ∨ (entry.2.isCompleted = false ∧ status.isCompleted = false)
  completed : v.completed = some status
  answers : Answers lib proves flaws v r status
  tally : flaws.recounts = false → v.tally = [status.isCompleted]

structure Fits (v : JobView) (r : ProofRequest) (state : PartitionedJobState) : Prop where
  total : state.assembler.totalPartitions = (lib.circuits r).length
  length : state.assembler.partitions.length = (lib.circuits r).length
  filled : state.assembler.filled = state.assembler.partitions.countP Option.isSome
  request : state.request = r
  kind : state.proofKind = r.proofKind
  slots : ∀ i bytes, state.assembler.partitions[i]? = some (some bytes) →
    (i, bytes) ∈ v.arrived ∧ ∃ circuit, (lib.circuits r)[i]? = some circuit ∧ proves circuit bytes
  own : ∀ item ∈ v.parts,
    item.request = r ∧ state.assembler.partitions[item.partitionIdx]? = some none
  nodup : v.parts.Nodup

inductive Phase (v : JobView) : Prop where
  | unknown (empty : v = unknown)
  | waiting (r : ProofRequest) (opened : Open v r) (held : v.held = {r}) (parts : v.parts = 0)
      (assembler : v.assembler = none) (split : v.split = false) (calm : v.troubled = false)
  | assembling (r : ProofRequest) (state : PartitionedJobState) (opened : Open v r)
      (held : v.held = 0) (assembler : v.assembler = some state) (going : state.failed = false)
      (calm : v.troubled = false) (fits : Fits lib proves v r state)
      (whole : ∀ i, state.assembler.partitions[i]? = some none → ⟨r, i⟩ ∈ v.parts)
      (more : ∃ i : Nat, state.assembler.partitions[i]? = some none)
  | broken (r : ProofRequest) (state : PartitionedJobState) (message : String)
      (closed : Closed lib proves flaws v r (.failed message)) (held : v.held = 0)
      (assembler : v.assembler = some state) (fits : Fits lib proves v r state)
      (gap : ∃ i : Nat, state.assembler.partitions[i]? = some none ∧ ⟨r, i⟩ ∉ v.parts)
  | done (r : ProofRequest) (status : JobStatus)
      (closed : Closed lib proves flaws v r status) (held : v.held = 0) (parts : v.parts = 0)
      (assembler : v.assembler = none)
  | forgotten (r : ProofRequest) (unfair : flaws.unfair = true) (opened : Open v r)
      (held : v.held = 0) (parts : v.parts = 0) (assembler : v.assembler = none)
      (split : v.split = false)

def listen (v : JobView) : JobView :=
  { v with
    pending := some (v.pending.getD [] ++ [v.listeners])
    listeners := v.listeners + 1 }

def hear (v : JobView) (status : JobStatus) : JobView :=
  { v with
    listeners := v.listeners + 1
    received := v.received ++ [(v.listeners, status)] }

def awaitProof (v : JobView) : JobView :=
  match v.completed with
  | some status => v.hear status
  | none => if v.pending.isSome then v.listen else v

def close (v : JobView) (status : JobStatus) (trouble : Bool) : JobView :=
  { v.finish status with troubled := trouble || v.troubled }

/-- The result of a partition is put into the assembler, and the last one ends the job. -/
def arrive {Circuit : Type} (lib : Library Circuit) (v : JobView) (pIdx : Nat)
    (proofBytes : Bytes) : JobView :=
  match v.assembler with
  | none => v
  | some state =>
    if state.failed then v
    else
      match state.assembler.insert pIdx proofBytes with
      | .error _ => v
      | .ok assembler =>
        if assembler.isComplete then
          let removed : JobView := { v with assembler := none }
          match assembler.assemble with
          | .error _ => removed
          | .ok finalProof =>
            removed.finish (JobTracker.checked lib state.proofKind state.request finalProof
              ("PoRep proof self-check failed: assembled proof did not verify " ++
                s!"(sector={state.request.sectorNumber}, " ++
                s!"miner={state.request.minerId})"))
        else { v with assembler := some { state with assembler := assembler } }

def failPartition (v : JobView) (message : String) : JobView :=
  match v.assembler with
  | none => v
  | some state =>
    if state.failed then v
    else
      ({ v with assembler := some { state with failed := true } } : JobView).finish
        (.failed message)

section Rules

variable {lib proves flaws} {v w : JobView} {r : ProofRequest} {state : PartitionedJobState}
  {status : JobStatus}
variable {held : Multiset ProofRequest}

theorem Closed.reshape (closed : Closed lib proves flaws v r status) {held : Multiset ProofRequest}
    {parts : Multiset PartitionWorkItem} {assembler : Option PartitionedJobState} :
    Closed lib proves flaws { v with held, parts, assembler } r status :=
  { closed with answers := { closed.answers with } }

theorem Closed.reshapeFailed (closed : Closed lib proves flaws v r (.failed message))
    {held : Multiset ProofRequest} {parts : Multiset PartitionWorkItem}
    {assembler : Option PartitionedJobState} {troubled : Bool} {arrived : List (Nat × Bytes)}
    (louder : v.troubled = true → troubled = true) :
    Closed lib proves flaws { v with held, parts, assembler, troubled, arrived } r
      (.failed message) := by
  refine { closed with answers := ⟨nofun, fun fair untroubled => ?_⟩ }
  refine closed.answers.fair fair (Bool.eq_false_iff.mpr fun before => ?_)
  exact absurd ((louder before).symm.trans untroubled) nofun

theorem Open.listen (opened : Open v r) : Open v.listen r where
  __ := opened
  pending := by
    show some (v.pending.getD [] ++ [v.listeners]) = some (range (v.listeners + 1))
    rw [opened.pending, Option.getD_some, range_succ]

theorem Open.awaitProof (opened : Open v r) : v.awaitProof = v.listen := by
  rw [JobView.awaitProof, opened.completed, opened.pending]
  rfl

section

variable (closed : Closed lib proves flaws v r status)
include closed

theorem Closed.hear : Closed lib proves flaws (v.hear status) r status where
  __ := closed
  received := by
    show (v.received ++ [(v.listeners, status)]).map Prod.fst = range (v.listeners + 1)
    rw [map_append, closed.received, range_succ]
    rfl
  same := by
    intro entry member
    rcases mem_append.mp member with before | here
    · exact closed.same entry before
    · rw [mem_singleton.mp here]
      exact .inl rfl
  answers := ⟨closed.answers.own, closed.answers.fair⟩

theorem Closed.awaitProof : v.awaitProof = v.hear status := by
  rw [JobView.awaitProof, closed.completed]

end

theorem Phase.awaitProof (phase : Phase lib proves flaws v) :
    Phase lib proves flaws v.awaitProof := by
  cases phase with
  | unknown empty =>
    subst empty
    exact .unknown rfl
  | waiting r opened held parts assembler split calm =>
    rw [opened.awaitProof]
    exact .waiting r opened.listen held parts assembler split calm
  | assembling r state opened held assembler going calm fits whole more =>
    rw [opened.awaitProof]
    exact .assembling r state opened.listen held assembler going calm { fits with } whole more
  | broken r state message closed held assembler fits gap =>
    rw [closed.awaitProof]
    exact .broken r state message closed.hear held assembler { fits with } gap
  | done r status closed held parts assembler =>
    rw [closed.awaitProof]
    exact .done r status closed.hear held parts assembler
  | forgotten r unfair opened held parts assembler split =>
    rw [opened.awaitProof]
    exact .forgotten r unfair opened.listen held parts assembler split

theorem Phase.fresh (phase : Phase lib proves flaws v) (fresh : v.submitted = []) :
    v = JobView.unknown := by
  cases phase with
  | unknown empty => exact empty
  | waiting r opened | assembling r state opened =>
    exact absurd (opened.submitted.symm.trans fresh) nofun
  | broken r state message closed | done r status closed =>
    exact absurd (closed.submitted.symm.trans fresh) nofun
  | forgotten r unfair opened => exact absurd (opened.submitted.symm.trans fresh) nofun

theorem phase_submitted (r : ProofRequest) :
    Phase lib proves flaws ({ unknown.listen with submitted := [r], held := {r} } : JobView) :=
  .waiting r ⟨rfl, rfl, rfl, rfl, rfl⟩ rfl rfl rfl rfl rfl

theorem Phase.of_held (phase : Phase lib proves flaws v) (has : v.held = r ::ₘ held) :
    held = 0 ∧ Open v r ∧ v.parts = 0 ∧ v.assembler = none ∧ v.split = false ∧
      v.troubled = false := by
  have nonempty : v.held ≠ 0 := by
    rw [has]
    exact Multiset.cons_ne_zero
  cases phase with
  | unknown empty =>
    subst empty
    exact absurd rfl nonempty
  | waiting r' opened held' parts assembler split calm =>
    have single : r ::ₘ held = {r'} := has.symm.trans held'
    obtain ⟨rfl, none⟩ : r = r' ∧ held = 0 := by
      have member : r ∈ ({r'} : Multiset ProofRequest) := by
        grind
      obtain rfl := Multiset.mem_singleton.mp member
      exact ⟨rfl, (Multiset.cons_inj_right r).mp single⟩
    exact ⟨none, opened, parts, assembler, split, calm⟩
  | assembling r' state opened none | broken r' state message closed none
  | done r' status closed none | forgotten r' unfair opened none => exact absurd none nonempty

structure Deserved (lib : Library Circuit) (proves : Circuit → Bytes → Prop) (flaws : Flaws)
    (r : ProofRequest) (status : JobStatus) (trouble : Bool) : Prop where
  own : ∀ result, status = .completed result →
    trouble = false ∧ ∃ proofs, Proved lib proves r proofs ∧
      result = ⟨r.jobId, r.proofKind, proofs.flatten⟩
  fair : flaws.unfair = false → trouble = false → status.isCompleted = true

theorem deserved_failed (r : ProofRequest) (message : String) :
    Deserved lib proves flaws r (.failed message) true :=
  ⟨nofun, nofun⟩

theorem Open.close (opened : Open v r) (trouble : Bool)
    (answers : Answers lib proves flaws (v.close status trouble) r status) :
    Closed lib proves flaws (v.close status trouble) r status where
  submitted := opened.submitted
  pending := rfl
  received := by
    show (v.received ++ (v.pending.getD []).map fun sender => (sender, status)).map Prod.fst =
      range v.listeners
    rw [opened.received, opened.pending, nil_append, map_map]
    exact map_id _
  same := by
    intro entry member
    have sent : entry ∈ (v.pending.getD []).map fun sender => (sender, status) := by
      simpa [JobView.close, JobView.finish, opened.received] using member
    obtain ⟨sender, -, rfl⟩ := mem_map.mp sent
    exact .inl rfl
  completed := rfl
  answers := answers
  tally := by
    intro _
    show v.tally ++ [status.isCompleted] = [status.isCompleted]
    rw [opened.tally, nil_append]

variable (phase : Phase lib proves flaws v) (has : v.held = r ::ₘ held)
include phase has

theorem Phase.close {trouble : Bool} (deserved : Deserved lib proves flaws r status trouble) :
    Phase lib proves flaws { v.close status trouble with held := held } := by
  obtain ⟨rfl, opened, parts, assembler, split, calm⟩ := phase.of_held has
  have answers : Answers lib proves flaws (v.close status trouble) r status := by
    refine ⟨fun result completed => ?_, fun fair untroubled => ?_⟩
    · obtain ⟨untroubled, proofs, proved, same⟩ := deserved.own result completed
      refine ⟨by simp [JobView.close, calm, untroubled], proofs, proved, same, ?_⟩
      intro wasSplit
      exact absurd (split.symm.trans wasSplit) nofun
    · have none : trouble = false := by simpa [JobView.close, calm] using untroubled
      exact deserved.fair fair none
  exact .done r status ((opened.close trouble answers).reshape) rfl parts assembler

theorem Phase.forget (unfair : flaws.unfair = true) :
    Phase lib proves flaws { v with troubled := true, held := held } := by
  obtain ⟨rfl, opened, parts, assembler, split, -⟩ := phase.of_held has
  exact .forgotten r unfair { opened with } rfl parts assembler split

end Rules

section Partitions

variable {lib proves flaws} {v : JobView} {r : ProofRequest} {state : PartitionedJobState}
  {item : PartitionWorkItem} {rest : Multiset PartitionWorkItem}

theorem Phase.register (phase : Phase lib proves flaws v) {held : Multiset ProofRequest}
    (has : v.held = r ::ₘ held) (partitioned : 0 < (lib.circuits r).length) :
    Phase lib proves flaws { v with
      held := held
      split := true
      assembler := some ⟨.new (lib.circuits r).length, r, r.proofKind, false⟩
      parts := ↑(Engine.partitionItems lib r) + v.parts } := by
  obtain ⟨rfl, opened, idle, -, -, calm⟩ := phase.of_held has
  have empty (i : Nat) (inside : i < (lib.circuits r).length) :
      (replicate (lib.circuits r).length (none : Option Bytes))[i]? = some none := by
    rw [getElem?_replicate, if_pos inside]
  refine .assembling r _ { opened with } rfl rfl rfl calm
    ⟨rfl, length_replicate, ?_, rfl, rfl, ?_, ?_, ?_⟩ ?_ ?_
  · simp [ProofAssembler.new, countP_replicate]
  · grind [ProofAssembler.new]
  · intro item member
    rw [idle, add_zero] at member
    obtain ⟨i, inside, rfl⟩ := mem_map.mp (Multiset.mem_coe.mp member)
    exact ⟨rfl, empty i (mem_range.mp inside)⟩
  · rw [idle, add_zero]
    refine nodup_range.map ?_
    intro left right same
    exact congrArg PartitionWorkItem.partitionIdx same
  · intro i slot
    rw [idle, add_zero]
    refine Multiset.mem_coe.mpr (mem_map.mpr ⟨i, mem_range.mpr ?_, rfl⟩)
    have inside := (List.getElem?_eq_some_iff.mp slot).1
    simpa [ProofAssembler.new] using inside
  · exact ⟨0, empty 0 partitioned⟩

theorem mem_parts (has : v.parts = item ::ₘ rest) : item ∈ v.parts := by
  rw [has]
  exact Multiset.mem_cons_self item rest

section

variable (fits : Fits lib proves v r state) (has : v.parts = item ::ₘ rest)
include fits has

theorem Fits.without (arrived : v.arrived ⊆ w.arrived) (parts : w.parts = rest) :
    Fits lib proves w r state where
  __ := fits
  slots := by
    intro i bytes slot
    obtain ⟨before, proof⟩ := fits.slots i bytes slot
    exact ⟨arrived before, proof⟩
  own := by
    intro other member
    rw [parts] at member
    exact fits.own other (by rw [has]; exact Multiset.mem_cons_of_mem member)
  nodup := by
    rw [parts]
    have distinct := fits.nodup
    rw [has] at distinct
    exact (Multiset.nodup_cons.mp distinct).2

theorem Fits.gap : ∃ i : Nat, state.assembler.partitions[i]? = some none ∧ ⟨r, i⟩ ∉ rest := by
  obtain ⟨rfl, slot⟩ := fits.own item (mem_parts has)
  have distinct := fits.nodup
  rw [has] at distinct
  exact ⟨item.partitionIdx, slot, (Multiset.nodup_cons.mp distinct).1⟩

end

theorem Phase.of_parts (phase : Phase lib proves flaws v) (has : v.parts = item ::ₘ rest) :
    ∃ r state, v.held = 0 ∧ v.assembler = some state ∧ Fits lib proves v r state ∧
      ((Open v r ∧ state.failed = false ∧ v.troubled = false ∧
        ∀ i, state.assembler.partitions[i]? = some none → ⟨r, i⟩ ∈ v.parts) ∨
      (∃ message, Closed lib proves flaws v r (.failed message) ∧
        ∃ i : Nat, state.assembler.partitions[i]? = some none ∧ ⟨r, i⟩ ∉ v.parts)) := by
  have nonempty : v.parts ≠ 0 := by
    rw [has]
    exact Multiset.cons_ne_zero
  cases phase with
  | unknown empty =>
    subst empty
    exact absurd rfl nonempty
  | waiting r opened held parts => exact absurd parts nonempty
  | assembling r state opened held assembler going calm fits whole more
  | broken r state message closed held assembler fits gap => grind
  | done r status closed held parts | forgotten r unfair opened held parts =>
    exact absurd parts nonempty

theorem Closed.closeAgain {first : String} (closed : Closed lib proves flaws v r (.failed first))
    (recounts : flaws.recounts = true) {message : String} :
    Closed lib proves flaws (v.close (.failed message) true) r (.failed message) where
  submitted := closed.submitted
  pending := rfl
  received := by
    show (v.received ++ (v.pending.getD []).map fun sender => (sender, _)).map Prod.fst =
      range v.listeners
    rw [closed.pending]
    simpa using closed.received
  same := by
    intro entry member
    have before : entry ∈ v.received := by
      simpa [JobView.close, JobView.finish, closed.pending] using member
    rcases closed.same entry before with same | ⟨notCompleted, -⟩
    · exact .inr ⟨by rw [same]; rfl, rfl⟩
    · exact .inr ⟨notCompleted, rfl⟩
  completed := rfl
  answers := by
    refine ⟨nofun, fun _ untroubled => ?_⟩
    simp [JobView.close] at untroubled
  tally := fun exact => absurd (recounts.symm.trans exact) nofun

theorem Open.fail (opened : Open v r) (message : String) :
    Closed lib proves flaws (v.close (.failed message) true) r (.failed message) :=
  opened.close true ⟨nofun, nofun⟩

theorem gap_without (has : v.parts = item ::ₘ rest)
    (gap : ∃ i : Nat, state.assembler.partitions[i]? = some none ∧ ⟨r, i⟩ ∉ v.parts) :
    ∃ i : Nat, state.assembler.partitions[i]? = some none ∧ ⟨r, i⟩ ∉ rest := by
  grind

theorem Fits.markFailed (fits : Fits lib proves v r state) :
    Fits lib proves v r { state with failed := true } :=
  { fits with }

variable (phase : Phase lib proves flaws v) (has : v.parts = item ::ₘ rest)
include phase has

theorem Phase.skip (failed : ∀ state, v.assembler = some state → state.failed = true) :
    Phase lib proves flaws { v with parts := rest } := by
  obtain ⟨r, state, held, assembler, fits, phases⟩ := phase.of_parts has
  rcases phases with ⟨-, going, -, -⟩ | ⟨message, closed, gap⟩
  · exact absurd (going.symm.trans (failed state assembler)) nofun
  · exact .broken r state message closed.reshape held assembler
      (fits.without has (Subset.refl _) rfl) (gap_without has gap)

theorem Phase.failStart (message : String) (once : flaws.recounts = true ∨ v.completed = none) :
    Phase lib proves flaws { v.close (.failed message) true with parts := rest } := by
  obtain ⟨r, state, held, assembler, fits, phases⟩ := phase.of_parts has
  rcases phases with ⟨opened, -⟩ | ⟨first, closed, gap⟩
  · exact .broken r state message ((opened.fail message).reshape) held assembler
      (fits.without has (Subset.refl _) rfl) (fits.gap has)
  · have recounts : flaws.recounts = true := by
      rcases once with recounts | free
      · exact recounts
      · exact absurd (closed.completed.symm.trans free) nofun
    exact .broken r state message ((closed.closeAgain recounts).reshape) held
      assembler (fits.without has (Subset.refl _) rfl) (gap_without has gap)

theorem Phase.failPartition (message : String)
    (once : flaws.recounts = true ∨ v.completed = none ∨
      ∀ state, v.assembler = some state → state.failed = true) :
    Phase lib proves flaws
      (({ v with troubled := true, parts := rest } : JobView).failPartition message) := by
  obtain ⟨r, state, held, assembler, fits, phases⟩ := phase.of_parts has
  have here : ({ v with troubled := true, parts := rest } : JobView).assembler = some state :=
    assembler
  rw [JobView.failPartition, here]
  dsimp only
  cases failed : state.failed with
  | true =>
    rcases phases with ⟨-, going, -, -⟩ | ⟨first, closed, gap⟩
    · exact absurd (failed.symm.trans going) nofun
    · exact .broken r state first (closed.reshapeFailed fun _ => rfl) held rfl
        (fits.without has (Subset.refl _) rfl) (gap_without has gap)
  | false =>
    have marked := fits.markFailed.without has (w := { v with parts := rest }) (Subset.refl _) rfl
    rcases phases with ⟨opened, -⟩ | ⟨first, closed, gap⟩
    · exact .broken r _ message ((opened.fail message).reshape) held rfl
        { marked with } (fits.gap has)
    · have recounts : flaws.recounts = true := by
        rcases once with recounts | free | sticky
        · exact recounts
        · exact absurd (closed.completed.symm.trans free) nofun
        · exact absurd (failed.symm.trans (sticky state assembler)) nofun
      exact .broken r _ message ((closed.closeAgain recounts).reshape) held rfl
        { marked with } (gap_without has gap)

end Partitions

variable {lib proves flaws} {v : JobView} {r : ProofRequest} {state : PartitionedJobState}
  {item : PartitionWorkItem} {rest : Multiset PartitionWorkItem} {bytes : Bytes}
variable {partitions : List (Option Bytes)}

def note (v : JobView) (pIdx : Nat) (bytes : Bytes) (rest : Multiset PartitionWorkItem) :
    JobView :=
  { v with arrived := v.arrived ++ [(pIdx, bytes)], parts := rest }

theorem insert_eq {a : ProofAssembler} (sized : bytes.length = grothProofBytes)
    (inside : i < a.totalPartitions) (slot : a.partitions[i]? = some none) :
    a.insert i bytes = .ok { a with
      partitions := a.partitions.set i (some bytes)
      filled := a.filled + 1 } := by
  grind [ProofAssembler.insert]

theorem getElem?_fill (slot : partitions[i]? = some none) (j : Nat) :
    (partitions.set i (some bytes))[j]? = if j = i then some (some bytes) else partitions[j]? := by
  grind

/-- The assembler takes the result of every partition that is under way. -/
theorem Fits.insert (fits : Fits lib proves v r state) (has : v.parts = item ::ₘ rest)
    (sized : bytes.length = grothProofBytes)
    (proved : ∀ circuit, (lib.circuits r)[item.partitionIdx]? = some circuit →
      proves circuit bytes) :
    ∃ assembler, state.assembler.insert item.partitionIdx bytes = .ok assembler ∧
      Fits lib proves (v.note item.partitionIdx bytes rest) r
        { state with assembler := assembler } ∧
      ∀ i : Nat, assembler.partitions[i]? = some none ↔
        i ≠ item.partitionIdx ∧ state.assembler.partitions[i]? = some none := by
  obtain ⟨rfl, slot⟩ := fits.own item (mem_parts has)
  have inside : item.partitionIdx < (lib.circuits item.request).length := by
    grind [fits.length]
  have distinct := fits.nodup
  rw [has, Multiset.nodup_cons] at distinct
  refine ⟨{ state.assembler with
      partitions := state.assembler.partitions.set item.partitionIdx (some bytes)
      filled := state.assembler.filled + 1 },
    insert_eq sized (by rw [fits.total]; exact inside) slot, ?_, ?_⟩
  · refine ⟨fits.total, ?_, ?_, fits.request, fits.kind, ?_, ?_, distinct.2⟩
    · exact length_set.trans fits.length
    · grind [fits.filled]
    · intro i found filled
      rw [getElem?_fill slot] at filled
      by_cases same : i = item.partitionIdx
      · rw [if_pos same] at filled
        cases filled
        subst same
        obtain ⟨circuit, here⟩ : ∃ circuit,
            (lib.circuits item.request)[item.partitionIdx]? = some circuit :=
          ⟨_, getElem?_eq_getElem inside⟩
        exact ⟨mem_append_right _ (mem_singleton_self _), circuit, here, proved circuit here⟩
      · rw [if_neg same] at filled
        obtain ⟨before, proof⟩ := fits.slots i found filled
        exact ⟨mem_append_left _ before, proof⟩
    · intro other under
      obtain ⟨request, empty⟩ := fits.own other (by rw [has]; exact Multiset.mem_cons_of_mem under)
      refine ⟨request, ?_⟩
      rw [getElem?_fill slot, if_neg]
      · exact empty
      · intro same
        have equal : other = item := by
          cases other
          cases item
          simp_all
        exact distinct.1 (equal ▸ under)
  · grind

theorem joinFrom_map_some (i : Nat) (proofs : List Bytes) :
    ProofAssembler.joinFrom i (proofs.map some) = .ok proofs.flatten := by
  induction proofs generalizing i with
  | nil => rfl
  | cons proof proofs ih =>
    rw [map_cons, ProofAssembler.joinFrom, ih, GoRuntime.ok_bind, flatten_cons]

theorem exists_map_some (full : ∀ slot ∈ partitions, slot.isSome = true) :
    ∃ proofs : List Bytes, partitions = proofs.map some := by
  induction partitions with
  | nil => exact ⟨[], rfl⟩
  | cons slot slots ih =>
    obtain ⟨proof, rfl⟩ := Option.isSome_iff_exists.mp (full slot mem_cons_self)
    obtain ⟨proofs, rfl⟩ := ih (forall_mem_cons.mp full).2
    exact ⟨proof :: proofs, rfl⟩

section

variable (fits : Fits lib proves v r state)
include fits

theorem Fits.isComplete_iff :
    state.assembler.isComplete = true ↔ ∀ i : Nat, state.assembler.partitions[i]? ≠ some none := by
  rw [ProofAssembler.isComplete, decide_eq_true_iff, fits.total, ← fits.length, fits.filled,
    countP_eq_length]
  constructor
  · intro all i slot
    exact absurd (all none (mem_of_getElem? slot)) nofun
  · intro all slot member
    obtain ⟨i, inside, rfl⟩ := getElem_of_mem member
    refine Option.ne_none_iff_isSome.mp fun empty => all i ?_
    rw [getElem?_eq_getElem inside, empty]

variable (complete : state.assembler.isComplete = true)
include complete

theorem Fits.no_parts : v.parts = 0 :=
  Multiset.eq_zero_of_forall_notMem fun item member =>
    fits.isComplete_iff.mp complete item.partitionIdx (fits.own item member).2

theorem Fits.assemble :
    ∃ proofs, state.assembler.assemble = .ok proofs.flatten ∧
      Forall₂ proves (lib.circuits r) proofs ∧
      ∀ i proof, proofs[i]? = some proof → (i, proof) ∈ v.arrived := by
  have counted : state.assembler.partitions.countP Option.isSome =
      state.assembler.partitions.length := by
    rw [← fits.filled, fits.length, ← fits.total]
    exact decide_eq_true_iff.mp complete
  obtain ⟨proofs, all⟩ := exists_map_some (countP_eq_length.mp counted)
  have slot (i : Nat) (proof : Bytes) (here : proofs[i]? = some proof) :
      state.assembler.partitions[i]? = some (some proof) := by
    rw [all, getElem?_map, here]
    rfl
  refine ⟨proofs, ?_, ?_, fun i proof here => (fits.slots i proof (slot i proof here)).1⟩
  · rw [ProofAssembler.assemble, if_pos complete, all, joinFrom_map_some]
  · have length : (lib.circuits r).length = proofs.length := by
      rw [← fits.length, all, length_map]
    rw [forall₂_iff_get]
    refine ⟨length, fun i left right => ?_⟩
    obtain ⟨circuit, at_i, proved⟩ :=
      (fits.slots i _ (slot i _ (getElem?_eq_getElem right))).2
    rw [getElem?_eq_getElem left] at at_i
    cases at_i
    exact proved

end

def Verifies (lib : Library Circuit) (proves : Circuit → Bytes → Prop) : Prop :=
  ∀ (r : ProofRequest) (proofs : List Bytes), r.proofKind = .poRepSealCommit →
    Forall₂ proves (lib.circuits r) proofs →
      lib.verifyPorepProof r.vanillaProof proofs.flatten r.sectorNumber r.minerId = .ok true

theorem selfCheck_iff :
    JobTracker.selfCheck lib kind r bytes = true ↔ (kind = .poRepSealCommit →
      lib.verifyPorepProof r.vanillaProof bytes r.sectorNumber r.minerId = .ok true) := by
  grind [JobTracker.selfCheck]

theorem checked_eq_completed {result : ProofResult}
    (completed : JobTracker.checked lib kind r bytes message = .completed result) :
    result = ⟨r.jobId, kind, bytes⟩ ∧ (kind = .poRepSealCommit →
      lib.verifyPorepProof r.vanillaProof bytes r.sectorNumber r.minerId = .ok true) := by
  unfold JobTracker.checked at completed
  split at completed
  case isTrue passed =>
    exact ⟨(JobStatus.completed.inj completed).symm, selfCheck_iff.mp passed⟩
  case isFalse => exact nomatch completed

variable {proofs : List Bytes}

theorem checked_deserved (each : Forall₂ proves (lib.circuits r) proofs)
    (verifier : flaws.unfair = false → Verifies lib proves) (message : String) :
    Deserved lib proves flaws r
      (JobTracker.checked lib r.proofKind r proofs.flatten message) false where
  own := by
    intro result completed
    obtain ⟨rfl, passed⟩ := checked_eq_completed completed
    exact ⟨rfl, proofs, ⟨each, passed⟩, rfl⟩
  fair := by
    intro fair _
    have passed : JobTracker.selfCheck lib r.proofKind r proofs.flatten = true :=
      selfCheck_iff.mpr fun porep => verifier fair r proofs porep each
    rw [JobTracker.checked, if_pos passed]
    rfl

theorem phase_assembled (opened : Open v r) (calm : v.troubled = false) (held : v.held = 0)
    (idle : w.parts = 0) (each : Forall₂ proves (lib.circuits r) proofs)
    (arrived : ∀ i proof, proofs[i]? = some proof → (i, proof) ∈ w.arrived)
    (verifier : flaws.unfair = false → Verifies lib proves) {message : String} :
    Phase lib proves flaws
      (({ v with arrived := w.arrived, parts := w.parts, assembler := none } : JobView).finish
        (JobTracker.checked lib r.proofKind r proofs.flatten message)) := by
  have moved : Open { v with arrived := w.arrived, parts := w.parts, assembler := none } r :=
    { opened with }
  refine .done r _ (moved.close false ⟨fun result completed => ?_, ?_⟩) held idle rfl
  · obtain ⟨rfl, passed⟩ := checked_eq_completed completed
    exact ⟨calm, proofs, ⟨each, passed⟩, rfl, fun _ => arrived⟩
  · intro fair _
    exact (checked_deserved each verifier message).fair fair rfl

theorem Phase.arrive (phase : Phase lib proves flaws v) (has : v.parts = item ::ₘ rest)
    (sized : bytes.length = grothProofBytes)
    (proved : ∀ circuit, (lib.circuits item.request)[item.partitionIdx]? = some circuit →
      proves circuit bytes)
    (verifier : flaws.unfair = false → Verifies lib proves) :
    Phase lib proves flaws ((v.note item.partitionIdx bytes rest).arrive lib item.partitionIdx
      bytes) := by
  obtain ⟨r, state, held, assembler, fits, phases⟩ := phase.of_parts has
  obtain ⟨rfl, -⟩ := fits.own item (mem_parts has)
  have here : (v.note item.partitionIdx bytes rest).assembler = some state := assembler
  rw [JobView.arrive, here]
  dsimp only
  by_cases failed : state.failed = true
  · rw [if_pos failed]
    rcases phases with ⟨-, going, -, -⟩ | ⟨first, closed, gap⟩
    · exact absurd (failed.symm.trans going) nofun
    · exact .broken item.request state first (closed.reshapeFailed id) held assembler
        (fits.without has (subset_append_left _ _) rfl) (gap_without has gap)
  rw [if_neg failed]
  obtain ⟨next, inserted, fitsNext, empty⟩ := fits.insert has sized proved
  rw [inserted]
  dsimp only
  rcases phases with ⟨opened, going, calm, whole⟩ | ⟨first, closed, i, slot, missing⟩
  · by_cases complete : next.isComplete = true
    · obtain ⟨proofs, assembled, each, arrived⟩ := fitsNext.assemble complete
      rw [if_pos complete, assembled]
      rw [fits.kind, fits.request]
      exact phase_assembled opened calm held (fitsNext.no_parts complete) each arrived verifier
    · rw [if_neg complete]
      refine .assembling item.request { state with assembler := next }
        { opened with } held rfl going calm { fitsNext with } ?_ ?_
      · grind [note]
      · by_contra full
        exact complete (fitsNext.isComplete_iff.mpr fun i slot => full ⟨i, slot⟩)
  · have apart : i ≠ item.partitionIdx := by
      rintro rfl
      exact missing (mem_parts has)
    have slotNext : next.partitions[i]? = some none := (empty i).mpr ⟨apart, slot⟩
    rw [if_neg fun complete => fitsNext.isComplete_iff.mp complete i slotNext]
    refine .broken item.request { state with assembler := next } first
      (closed.reshapeFailed id) held rfl { fitsNext with }
      ⟨i, slotNext, fun under => missing ?_⟩
    rw [has]
    exact Multiset.mem_cons_of_mem under

end JobView

end Curio.Cuzk
