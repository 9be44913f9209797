import Curio.Cuzk.EngineRuns

/-! Jobs that are proved partition by partition.

A job is counted by the exits of its partitions. That it is counted once comes from its phases; that
the count is kept comes from the operations of the tracker, which add to the tally and to the
totals together. -/

namespace Curio.Cuzk

open StepMachine List

variable {jobId : JobId} {status : JobStatus}

namespace JobTracker

structure Counts (t t' : JobTracker) (counted : List (JobId × Bool)) : Prop where
  tally : t'.tally = t.tally ++ counted
  completed : t'.totalCompleted = t.totalCompleted + counted.countP Prod.snd
  failed : t'.totalFailed = t.totalFailed + counted.countP fun entry => !entry.2

variable {t t' t'' : JobTracker}

def Grows (t t' : JobTracker) : Prop :=
  ∃ counted, Counts t t' counted

theorem Grows.of_eq (tally : t'.tally = t.tally) (completed : t'.totalCompleted = t.totalCompleted)
    (failed : t'.totalFailed = t.totalFailed) : Grows t t' :=
  ⟨[], by rw [append_nil, tally], completed, failed⟩

theorem Grows.trans (first : Grows t t') (second : Grows t' t'') : Grows t t'' := by
  obtain ⟨front, front_counts⟩ := first
  obtain ⟨back, back_counts⟩ := second
  refine ⟨front ++ back, ?_, ?_, ?_⟩
  · rw [back_counts.tally, front_counts.tally, append_assoc]
  · rw [back_counts.completed, front_counts.completed, countP_append, add_assoc]
  · rw [back_counts.failed, front_counts.failed, countP_append, add_assoc]

theorem finish_grows (t : JobTracker) (jobId : JobId) (kind : ProofKind) (status : JobStatus) :
    Grows t (t.finish jobId kind status) := by
  refine ⟨[(jobId, status.isCompleted)], ?_⟩
  rw [finish_eq]
  cases status with
  | completed result | failed message => exact ⟨rfl, rfl, rfl⟩

theorem finishAll_grows (kind : ProofKind) (t : JobTracker)
    (answers : List (ProofRequest × JobStatus)) : Grows t (finishAll kind t answers) := by
  induction answers generalizing t with
  | nil => exact .of_eq rfl rfl rfl
  | cons answer rest ih => exact (finish_grows t _ kind _).trans (ih _)

theorem setAssembler_finish_grows {kind : ProofKind} {state : Option PartitionedJobState} :
    Grows t ((t.setAssembler jobId state).finish jobId kind status) := by
  have changed : Grows t (t.setAssembler jobId state) := .of_eq rfl rfl rfl
  exact changed.trans (finish_grows _ jobId kind status)

theorem failPartition_grows (t : JobTracker) (jobId : JobId) (kind : ProofKind) (message : String) :
    Grows t (t.failPartition jobId kind message) := by
  unfold failPartition
  split
  · exact .of_eq rfl rfl rfl
  · split
    · exact .of_eq rfl rfl rfl
    · exact setAssembler_finish_grows

variable {Circuit : Type} (lib : Library Circuit)

theorem processPartitionResult_grows (t : JobTracker) (result : Outcome (List UInt8))
    (jobId : JobId) (pIdx : Nat) (kind : ProofKind) :
    Grows t (t.processPartitionResult lib result jobId pIdx kind) := by
  unfold processPartitionResult
  split
  · split
    · exact .of_eq rfl rfl rfl
    split
    · exact .of_eq rfl rfl rfl
    split
    · exact .of_eq rfl rfl rfl
    split
    · dsimp only
      split
      · exact .of_eq rfl rfl rfl
      · exact setAssembler_finish_grows
    · exact .of_eq rfl rfl rfl
  · exact failPartition_grows t jobId kind _
  · exact failPartition_grows t jobId kind _

theorem processMonolithicResult_grows (job : SynthesizedJob Circuit) (t : JobTracker)
    (result : Outcome (List UInt8)) : Grows t (job.processMonolithicResult lib t result) := by
  unfold SynthesizedJob.processMonolithicResult
  split
  · split
    · exact finish_grows ..
    · split
      · exact finishAll_grows ..
      · exact finishAll_grows ..
  · exact finishAll_grows ..
  · exact finishAll_grows ..

end JobTracker

namespace Engine

open JobTracker

variable {Circuit : Type} {lib : Library Circuit} {e e' mid : Engine Circuit} {r : ProofRequest}

theorem pushAll_tracker (e : Engine Circuit) (items : List (Work Circuit)) :
    (items.foldl Engine.push e).tracker = e.tracker := by
  induction items generalizing e with
  | nil => rfl
  | cons item rest ih => exact ih _

section Counting

variable [DecidableEq Circuit] {action : Action Circuit}

theorem step_grows (stepped : e.step lib action = some e') : Grows e.tracker e'.tracker := by
  cases action with
  | submit request =>
    cases stepped
    exact .of_eq rfl rfl rfl
  | awaitProof jobId =>
    cases stepped
    show Grows e.tracker (e.tracker.awaitProof jobId)
    unfold JobTracker.awaitProof
    split
    · exact .of_eq rfl rfl rfl
    · split <;> exact .of_eq rfl rfl rfl
  | next request now =>
    obtain ⟨-, taken⟩ := Option.ite_none_left_eq_some.mp stepped
    obtain ⟨-, rfl⟩ := takeUp_eq_some.mp taken
    exact .of_eq rfl rfl rfl
  | timeout now =>
    obtain ⟨-, flushed⟩ := Option.ite_none_left_eq_some.mp stepped
    cases flushed
    exact .of_eq rfl rfl rfl
  | shutdown =>
    cases stepped
    exact .of_eq rfl rfl rfl
  | process batch outcome =>
    obtain ⟨-, rfl⟩ := takeUp_eq_some.mp stepped
    unfold Engine.processBatch Engine.processPartitioned
    split
    · cases outcome with
      | ok value =>
        dsimp only
        rw [pushAll_tracker]
        exact .of_eq rfl rfl rfl
      | failed message | panicked message => exact finish_grows ..
    · cases outcome with
      | ok value => exact .of_eq rfl rfl rfl
      | failed message | panicked message => exact finishAll_grows ..
  | hand jobSeq item =>
    obtain ⟨-, rfl⟩ := takeUp_eq_some.mp stepped
    split <;> exact .of_eq rfl rfl rfl
  | synthesize jobSeq item outcome =>
    obtain ⟨-, rfl⟩ := takeUp_eq_some.mp stepped
    cases outcome with
    | ok value => exact .of_eq rfl rfl rfl
    | failed message | panicked message => exact failPartition_grows ..
  | pick jobSeq job =>
    obtain ⟨-, rfl⟩ := takeUp_eq_some.mp stepped
    split <;> exact .of_eq rfl rfl rfl
  | start job outcome =>
    obtain ⟨-, rfl⟩ := takeUp_eq_some.mp stepped
    cases outcome with
    | ok value => exact .of_eq rfl rfl rfl
    | failed message | panicked message => exact finish_grows ..
  | finish job outcome =>
    obtain ⟨-, rfl⟩ := takeUp_eq_some.mp stepped
    unfold Engine.finish
    cases job.partitionIndex with
    | some pIdx => exact processPartitionResult_grows ..
    | none => exact processMonolithicResult_grows ..

theorem run_grows {actions : List (Action Circuit)} (ran : run (step lib) e actions = some e') :
    Grows e.tracker e'.tracker := by
  induction actions generalizing e with
  | nil =>
    cases ran
    exact .of_eq rfl rfl rfl
  | cons action rest ih =>
    obtain ⟨next, stepped, later⟩ := (run_cons (step lib)).mp ran
    exact (step_grows stepped).trans (ih later)

end Counting

theorem tally_prefix (grows : Grows e.tracker e'.tracker) (jobId : JobId) :
    (e.view 0 0 jobId).tally <+: (e'.view 0 0 jobId).tally := by
  obtain ⟨counted, counts⟩ := grows
  refine ⟨(counted.filter fun entry => entry.1 = jobId).map Prod.snd, ?_⟩
  simp only [view, counts.tally, filter_append, map_append]

def Sized (_ : Circuit) (proof : List UInt8) : Prop :=
  proof.length = grothProofBytes

def countedOnce : Flaws := ⟨true, false⟩

def underWay (e : Engine Circuit) (jobId : JobId) : List PartitionWorkItem :=
  e.partsIn.filter fun item => item.request.jobId = jobId

structure Assembled (lib : Library Circuit) (e : Engine Circuit) (r : ProofRequest)
    (result : ProofResult) (proofs : List (List UInt8)) : Prop where
  length : proofs.length = (lib.circuits r).length
  each : ∀ i proof, proofs[i]? = some proof → (i, proof) ∈ e.arrived r.jobId
  result : result = ⟨r.jobId, r.proofKind, proofs.flatten⟩
  checked : r.proofKind = .poRepSealCommit →
    lib.verifyPorepProof r.vanillaProof proofs.flatten r.sectorNumber r.minerId = .ok true

structure Settles (lib : Library Circuit) (e : Engine Circuit) (r : ProofRequest) : Prop where
  /-- Each listener waits for a status or has received one. -/
  waiters : (e.tracker.received r.jobId).map Prod.fst ++ (e.tracker.pending r.jobId).getD [] =
    range (e.tracker.listeners r.jobId)
  /-- With the last partition the job is answered. -/
  ends : e.underWay r.jobId = [] →
    (e.tracker.completed r.jobId).isSome ∧ e.tracker.pending r.jobId = none
  counted : (e.tracker.tally.filter fun entry => entry.1 = r.jobId).map Prod.snd =
    ((e.tracker.completed r.jobId).map JobStatus.isCompleted).toList
  received : ∀ entry ∈ e.tracker.received r.jobId, ∃ status,
    e.tracker.completed r.jobId = some status ∧
      (entry.2 = status ∨ (entry.2.isCompleted = false ∧ status.isCompleted = false))
  completed : ∀ result, e.tracker.completed r.jobId = some (.completed result) →
    e.troubled r.jobId = false ∧ ∃ proofs, Assembled lib e r result proofs

theorem settles_of_closed (split : e.split r.jobId = true)
    (closed : JobView.Closed lib Sized countedOnce (e.view 0 0 r.jobId) r status) :
    Settles lib e r := by
  have pending : e.tracker.pending r.jobId = none := closed.pending
  have completed : e.tracker.completed r.jobId = some status := closed.completed
  refine ⟨?_, ?_, ?_, ?_, ?_⟩
  · rw [pending, Option.getD_none, append_nil]
    exact closed.received
  · intro _
    exact ⟨by rw [completed]; rfl, pending⟩
  · rw [completed]
    exact closed.tally rfl
  · intro entry member
    exact ⟨status, completed, closed.same entry member⟩
  · intro result same
    cases completed.symm.trans same
    obtain ⟨calm, proofs, proved, result, arrived⟩ := closed.answers.own _ rfl
    exact ⟨calm, proofs, proved.each.length_eq.symm, arrived split, result, proved.checked⟩

theorem settles_of_open (opened : JobView.Open (e.view 0 0 r.jobId) r)
    (busy : e.underWay r.jobId ≠ []) : Settles lib e r := by
  have pending : e.tracker.pending r.jobId = some _ := opened.pending
  have received : e.tracker.received r.jobId = [] := opened.received
  have completed : e.tracker.completed r.jobId = none := opened.completed
  refine ⟨?_, fun idle => absurd idle busy, ?_, ?_, ?_⟩
  · rw [received, pending]
    rfl
  · rw [completed]
    exact opened.tally
  · rw [received]
    nofun
  · rw [completed]
    nofun

theorem Sound.settles (sound : Sound lib Sized countedOnce e 0 0) (submitted : r ∈ e.submitted)
    (split : e.split r.jobId = true) : Settles lib e r := by
  cases sound r.jobId with
  | unknown empty => exact absurd ((congrArg JobView.split empty).symm.trans split) nofun
  | waiting r' opened held parts assembler unsplit =>
    exact absurd (unsplit.symm.trans split) nofun
  | assembling r' state opened held assembler going calm fits whole more =>
    obtain rfl := eq_of_submitted submitted opened.submitted
    refine settles_of_open opened fun idle => ?_
    obtain ⟨i, slot⟩ := more
    have under : ⟨r', i⟩ ∈ partsOf r'.jobId (0 + ↑e.partsIn) := whole i slot
    rw [zero_add, partsOf, Multiset.filter_coe,
      show e.partsIn.filter _ = [] from idle] at under
    simp at under
  | broken r' state message closed | done r' status closed =>
    obtain rfl := eq_of_submitted submitted closed.submitted
    exact settles_of_closed split closed
  | forgotten r' unfair opened held parts assembler unsplit =>
    exact absurd (unsplit.symm.trans split) nofun

theorem phase_tally {v : JobView} (phase : JobView.Phase lib Sized countedOnce v) :
    v.tally = (v.completed.map JobStatus.isCompleted).toList := by
  cases phase with
  | unknown empty => rw [empty]; rfl
  | waiting r opened | assembling r state opened => rw [opened.tally, opened.completed]; rfl
  | broken r state message closed | done r status closed =>
    rw [closed.tally rfl, closed.completed]; rfl
  | forgotten r unfair opened => rw [opened.tally, opened.completed]; rfl

theorem Sound.stays_failed {message : String} (before : Sound lib Sized countedOnce mid 0 0)
    (after : Sound lib Sized countedOnce e 0 0) (grows : Grows mid.tracker e.tracker)
    (failed : mid.tracker.completed jobId = some (.failed message)) :
    ∃ later, e.tracker.completed jobId = some (.failed later) := by
  have counted : (mid.view 0 0 jobId).completed = some (.failed message) := failed
  have grown := tally_prefix grows jobId
  rw [phase_tally (before jobId), phase_tally (after jobId), counted] at grown
  have here : (e.view 0 0 jobId).completed = e.tracker.completed jobId := rfl
  rw [here] at grown
  cases last : e.tracker.completed jobId with
  | none => simp [last] at grown
  | some status =>
    cases status with
    | completed result => simp [last, JobStatus.isCompleted] at grown
    | failed later => exact ⟨later, rfl⟩

variable [DecidableEq Circuit]

/-- In every run in which each job has an id of its own, the GPU gives back proofs of their size, no
push replaces what waits and no job that was answered fails once more, a partitioned job settles and
a failed one stays so. -/
theorem partitioned_jobs_settle (whole : ∀ req, 0 < (lib.circuits req).length)
    {config : BatchConfig} {front back : List (Action Circuit)}
    (frontUnder : RunsUnder (step lib) (Allowed Sized countedOnce) (new config) front)
    (reached : run (step lib) (new config) front = some mid)
    (backUnder : RunsUnder (step lib) (Allowed Sized countedOnce) mid back)
    (ran : run (step lib) mid back = some e) (submitted : r ∈ e.submitted)
    (split : e.split r.jobId = true) :
    Settles lib e r ∧
      (e.tracker.totalCompleted = e.tracker.tally.countP Prod.snd ∧
        e.tracker.totalFailed = e.tracker.tally.countP fun entry => !entry.2) ∧
      ∀ message, mid.tracker.completed r.jobId = some (.failed message) →
        ∃ later, e.tracker.completed r.jobId = some (.failed later) := by
  have premises : Premises lib Sized countedOnce := ⟨whole, fun _ _ => id, nofun⟩
  have before := run_sound premises (initial_sound config) frontUnder reached
  have after := run_sound premises before backUnder ran
  obtain ⟨counted, counts⟩ := (run_grows reached).trans (run_grows ran)
  have all : e.tracker.tally = counted := counts.tally
  refine ⟨after.2.settles submitted split, ⟨?_, ?_⟩, ?_⟩
  · rw [counts.completed, all]
    exact zero_add _
  · rw [counts.failed, all]
    exact zero_add _
  · intro message failed
    exact before.2.stays_failed after.2 (run_grows ran) failed

def sealing : ProofRequest := plainRequest "a" .poRepSealCommit

def splitActions : List (Action Nat) :=
  [.submit sealing, .next sealing 0, .process (.single sealing 0) (.ok ())]

def partitionJob (i : Nat) : SynthesizedJob Nat :=
  synthesizePartition (plainLibrary 2) ⟨sealing, i⟩

def partitionActions (i : Nat) : List (Action Nat) :=
  [.hand 0 ⟨sealing, i⟩, .synthesize 0 ⟨sealing, i⟩ (.ok ()), .pick 0 (partitionJob i)]

def pairedActions : List (Action Nat) :=
  splitActions ++ partitionActions 0 ++ partitionActions 1 ++
    [.start (partitionJob 0) (.ok ()), .start (partitionJob 1) (.ok ()),
      .finish (partitionJob 1) (.ok plainProof), .finish (partitionJob 0) (.ok plainProof)]

set_option maxRecDepth 8000 in
/-- The job is proved by its two partitions, the second one first, and a second listener asks
afterwards. -/
theorem partitioned_jobs_settle_pair : ∃ mid e,
    run (step (plainLibrary 2)) (new ⟨1, 0⟩) pairedActions = some mid ∧
    run (step (plainLibrary 2)) mid [.awaitProof "a"] = some e ∧ Settles (plainLibrary 2) e sealing ∧
    (e.tracker.completed "a").map JobStatus.isCompleted = some true := by
  have given (i : Nat) (bound : i < 2) (bytes : List UInt8)
      (same : Outcome.ok plainProof = .ok bytes) : Gives Sized (partitionJob i).synth bytes := by
    obtain rfl := Outcome.ok.inj same
    refine ⟨[plainProof], ?_, rfl⟩
    interval_cases i <;> exact .cons rfl .nil
  have frontUnder : RunsUnder (step (plainLibrary 2)) (Allowed Sized countedOnce) (new ⟨1, 0⟩)
      pairedActions :=
    .of_step nofun rfl (.of_step trivial rfl
      (.of_step (fun _ _ => forall_mem_singleton.mpr nofun) rfl
      (.of_step trivial rfl (.of_step ⟨fun _ => by decide, .inl rfl⟩ rfl (.of_step trivial rfl
      (.of_step trivial rfl (.of_step ⟨fun _ => by decide, .inl rfl⟩ rfl (.of_step trivial rfl
      (.of_step (.inl rfl) rfl (.of_step (.inl rfl) rfl
      (.of_step ⟨given 1 one_lt_two, .inl rfl⟩ rfl
      (.of_step ⟨given 0 two_pos, .inl rfl⟩ rfl trivial))))))))))))
  have backUnder (mid : Engine Nat) : RunsUnder (step (plainLibrary 2)) (Allowed Sized countedOnce)
      mid [.awaitProof "a"] := ⟨trivial, fun _ _ => trivial⟩
  have whole : ∀ req, 0 < ((plainLibrary 2).circuits req).length := fun _ => two_pos
  refine ⟨_, _, rfl, rfl, ?_, ?_⟩
  · exact (partitioned_jobs_settle whole frontUnder rfl (backUnder _) rfl (by decide) (by decide)).1
  · decide

def posting : ProofRequest := plainRequest "p" .winningPost

def postJob : SynthesizedJob Nat := synthesizeBatch (plainLibrary 2) (.single posting 0)

set_option maxRecDepth 8000 in
/-- The starts of two partitions fail: the job is counted twice. A PoSt proof replaces a partition
that waits for the GPU: nothing of the job is under way, and its listener waits. -/
theorem jobs_not_settled :
    (∃ e, run (step (plainLibrary 2)) (new ⟨1, 0⟩)
        (splitActions ++ partitionActions 0 ++ partitionActions 1 ++
          [.start (partitionJob 0) (.failed "no memory"),
            .start (partitionJob 1) (.failed "no memory")]) = some e ∧
      e.submitted = [sealing] ∧ e.split "a" = true ∧
      e.tracker.tally = [("a", false), ("a", false)] ∧ e.tracker.totalFailed = 2) ∧
    ∃ e, run (step (plainLibrary 2)) (new ⟨1, 0⟩)
        (splitActions ++ [.hand 0 ⟨sealing, 0⟩, .synthesize 0 ⟨sealing, 0⟩ (.ok ()),
          .submit posting, .next posting 0, .process (.single posting 0) (.ok ()),
          .pick 0 postJob] ++ partitionActions 1 ++
          [.start (partitionJob 1) (.ok ()), .finish (partitionJob 1) (.ok plainProof)]) = some e ∧
      e.split "a" = true ∧ e.underWay "a" = [] ∧ e.troubled "a" = false ∧
      e.tracker.completed "a" = none ∧ e.tracker.pending "a" = some [0] := by
  refine ⟨⟨_, rfl, ?_, ?_, ?_, ?_⟩, _, rfl, ?_, ?_, ?_, ?_, ?_⟩
  · decide
  · decide
  · decide
  · decide
  · decide
  · decide
  · decide
  · decide
  · decide

end Engine

end Curio.Cuzk
