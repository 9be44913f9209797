import Curio.Cuzk.EngineRuns

/-! Batches of requests, as their callers see them. -/

namespace Curio.Cuzk

namespace Engine

open StepMachine List

variable {Circuit : Type} {lib : Library Circuit} {proves : Circuit → List UInt8 → Prop}
  {e : Engine Circuit} {r : ProofRequest}

def answersAll : Flaws := ⟨false, true⟩

/-- The processing of a request has ended: neither it nor a partition of it is in the pipeline. -/
def Ended (e : Engine Circuit) (jobId : JobId) : Prop :=
  (∀ req ∈ e.requestsIn, req.jobId ≠ jobId) ∧ ∀ item ∈ e.partsIn, item.request.jobId ≠ jobId

structure Answered (lib : Library Circuit) (proves : Circuit → List UInt8 → Prop)
    (e : Engine Circuit) (r : ProofRequest) : Prop where
  pending : e.tracker.pending r.jobId = none
  waiters : (e.tracker.received r.jobId).map Prod.fst = range (e.tracker.listeners r.jobId)
  received : ∀ entry ∈ e.tracker.received r.jobId, ∃ status,
    e.tracker.completed r.jobId = some status ∧
      (entry.2 = status ∨ (entry.2.isCompleted = false ∧ status.isCompleted = false))
  own : ∀ result, e.tracker.completed r.jobId = some (.completed result) →
    ∃ proofs, Forall₂ proves (lib.circuits r) proofs ∧
      result = ⟨r.jobId, r.proofKind, proofs.flatten⟩
  succeeds : e.troubled r.jobId = false →
    (e.tracker.completed r.jobId).map JobStatus.isCompleted = some true

theorem answered_of_closed {status : JobStatus}
    (closed : JobView.Closed lib proves answersAll (e.view 0 0 r.jobId) r status) :
    Answered lib proves e r := by
  have completed : e.tracker.completed r.jobId = some status := closed.completed
  refine ⟨closed.pending, closed.received, ?_, ?_, ?_⟩
  · intro entry member
    exact ⟨status, completed, closed.same entry member⟩
  · intro result same
    cases completed.symm.trans same
    obtain ⟨-, proofs, proved, result, -⟩ := closed.answers.own _ rfl
    exact ⟨proofs, proved.each, result⟩
  · intro calm
    rw [completed, Option.map_some, closed.answers.fair rfl calm]

theorem Sound.answered (sound : Sound lib proves answersAll e 0 0) (submitted : r ∈ e.submitted)
    (ended : Ended e r.jobId) : Answered lib proves e r := by
  have held : requestsOf r.jobId (0 + ↑e.requestsIn) = 0 := by
    exact Multiset.filter_eq_nil.mpr fun req member => ended.1 req (Multiset.mem_coe.mp member)
  have parts : partsOf r.jobId (0 + ↑e.partsIn) = 0 := by
    exact Multiset.filter_eq_nil.mpr fun item member => ended.2 item (Multiset.mem_coe.mp member)
  cases sound r.jobId with
  | unknown empty =>
    have listed : r ∈ (e.view 0 0 r.jobId).submitted :=
      mem_filter.mpr ⟨submitted, decide_eq_true rfl⟩
    rw [empty] at listed
    exact nomatch listed
  | waiting r' opened waits => exact absurd (waits.symm.trans held) (Multiset.singleton_ne_zero r')
  | assembling r' state opened none assembler going calm fits whole more =>
    obtain ⟨i, slot⟩ := more
    have under : ⟨r', i⟩ ∈ partsOf r.jobId (0 + ↑e.partsIn) := whole i slot
    grind
  | broken r' state message closed | done r' status closed =>
    obtain rfl := eq_of_submitted submitted closed.submitted
    exact answered_of_closed closed
  | forgotten r' unfair => exact nomatch unfair

variable [DecidableEq Circuit]

/-- In every run in which each request has an id of its own, the GPU prover is right, no batch but
of PoRep requests is proved, no GPU start of a batch fails and no push replaces what waits, batching
is transparent. -/
theorem batching_transparent (premises : Premises lib proves answersAll) {config : BatchConfig}
    {actions : List (Action Circuit)}
    (under : RunsUnder (step lib) (Allowed proves answersAll) (new config) actions)
    (ran : run (step lib) (new config) actions = some e) :
    e.taken = e.dispatched ++ e.collector.requests ∧
      ∀ r ∈ e.dispatched, Ended e r.jobId → Answered lib proves e r := by
  obtain ⟨formed, sound⟩ := run_sound premises (initial_sound config) under ran
  refine ⟨formed.order, fun r member ended => ?_⟩
  have taken : r ∈ e.taken := by
    rw [formed.order]
    exact mem_append_left _ member
  exact sound.answered (formed.known taken) ended

def pairBatch (kind : ProofKind) (first second : JobId) : ProofBatch :=
  ⟨kind, plainRequest first kind, [plainRequest second kind], 0⟩

def pairJob (kind : ProofKind) (first second : JobId) : SynthesizedJob Nat :=
  synthesizeBatch (plainLibrary 1) (pairBatch kind first second)

def pairActions (kind : ProofKind) (first second : JobId) : List (Action Nat) :=
  [.submit (plainRequest first kind), .submit (plainRequest second kind),
    .next (plainRequest first kind) 0, .next (plainRequest second kind) 0,
    .process (pairBatch kind first second) (.ok ())]

def proveActions (kind : ProofKind) (first second : JobId) (proof : List UInt8) :
    List (Action Nat) :=
  [.pick 0 (pairJob kind first second), .start (pairJob kind first second) (.ok ()),
    .finish (pairJob kind first second) (.ok proof)]

set_option maxRecDepth 8000 in
/-- Two sectors are proved together. -/
theorem batching_transparent_pair : ∃ e,
    run (step (plainLibrary 1)) (new ⟨2, 0⟩) (pairActions .poRepSealCommit "a" "b" ++
      proveActions .poRepSealCommit "a" "b" (plainProof ++ plainProof)) = some e ∧
    (∀ r ∈ e.dispatched, Ended e r.jobId →
      Answered (plainLibrary 1) (fun _ proof => proof = plainProof) e r) ∧
    e.work = [] ∧ (e.tracker.completed "b").map JobStatus.isCompleted = some true := by
  have premises : Premises (plainLibrary 1) (fun _ proof => proof = plainProof) answersAll := by
    refine ⟨fun _ => Nat.one_pos, fun _ proof same => ?_, fun _ _ _ _ _ => rfl⟩
    rw [same]
    rfl
  have given : Gives (fun _ proof => proof = plainProof) (pairJob .poRepSealCommit "a" "b").synth
      (plainProof ++ plainProof) :=
    ⟨[plainProof, plainProof], .cons rfl (.cons rfl .nil), rfl⟩
  have under : RunsUnder (step (plainLibrary 1))
      (Allowed (fun _ proof => proof = plainProof) answersAll) (new ⟨2, 0⟩)
      (pairActions .poRepSealCommit "a" "b" ++
        proveActions .poRepSealCommit "a" "b" (plainProof ++ plainProof)) := by
    refine .of_step nofun rfl (.of_step (forall_mem_singleton.mpr (by decide)) rfl
      (.of_step trivial rfl (.of_step trivial rfl
      (.of_step (fun _ _ => forall_mem_singleton.mpr nofun) rfl (.of_step trivial rfl
      (.of_step (.inl rfl) rfl (.of_step ⟨?_, .inr (.inr (.inr rfl))⟩ rfl trivial)))))))
    intro bytes same
    obtain rfl := Outcome.ok.inj same
    exact given
  refine ⟨_, rfl, (batching_transparent premises under rfl).2, ?_, ?_⟩
  · decide
  · decide

set_option maxRecDepth 16000 in
/-- A batch of SnapDeals updates fails although everything went well; the start of a batch fails and
its second request is never answered; a batch replaces one that waits for the GPU, whose requests
are never answered. -/
theorem batches_not_transparent :
    (∃ e, run (step (plainLibrary 1)) (new ⟨2, 0⟩) (pairActions .snapDealsUpdate "a" "b" ++
        proveActions .snapDealsUpdate "a" "b" plainProof) = some e ∧
      (e.troubled "a" = false ∧ e.troubled "b" = false) ∧
      (e.tracker.completed "a").map JobStatus.isCompleted = some false ∧
      (e.tracker.completed "b").map JobStatus.isCompleted = some false) ∧
    (∃ e, run (step (plainLibrary 1)) (new ⟨2, 0⟩) (pairActions .poRepSealCommit "a" "b" ++
        [.pick 0 (pairJob .poRepSealCommit "a" "b"),
          .start (pairJob .poRepSealCommit "a" "b") (.failed "no memory")]) = some e ∧
      e.work = [] ∧ e.tracker.pending "b" = some [0] ∧ e.tracker.completed "b" = none) ∧
    ∃ e, run (step (plainLibrary 1)) (new ⟨2, 0⟩) (pairActions .poRepSealCommit "a" "b" ++
        pairActions .poRepSealCommit "c" "d" ++
        proveActions .poRepSealCommit "c" "d" (plainProof ++ plainProof)) = some e ∧
      e.work = [] ∧ e.tracker.pending "a" = some [0] ∧ e.tracker.completed "a" = none ∧
      e.troubled "a" = false ∧ e.tracker.pending "b" = some [0] := by
  refine ⟨⟨_, rfl, ?_, ?_, ?_⟩, ⟨_, rfl, ?_, ?_, ?_⟩, _, rfl, ?_, ?_, ?_, ?_, ?_⟩
  · decide
  · decide
  · decide
  · decide
  · decide
  · decide
  · decide
  · decide
  · decide
  · decide
  · decide

end Engine

end Curio.Cuzk
