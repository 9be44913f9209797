import Curio.Cuzk.JobLife

/-! The engine as many lives of jobs.

`Sound` says that every job is in one of its phases, while the running step has requests and
partitions in hand. Each operation of the engine has a rule that says what it does with them; a
whole step starts and ends with nothing in hand. -/

namespace Curio.Cuzk

open Function (update eq_update_iff update_self update_of_ne)

open List

namespace JobTracker

variable (t : JobTracker) (jobId : JobId) (kind : ProofKind) (status : JobStatus)

theorem record_eq : t.record jobId kind status =
    { t.record jobId kind status with
      pending := t.pending
      completed := t.completed
      assemblers := t.assemblers
      listeners := t.listeners
      received := t.received
      tally := t.tally ++ [(jobId, status.isCompleted)] } := by
  cases status <;> rfl

theorem send_eq : t.send jobId status =
    { t with
      pending := update t.pending jobId none
      received := update t.received jobId
        (t.received jobId ++ ((t.pending jobId).getD []).map fun sender => (sender, status)) } := by
  unfold send
  split
  case h_1 nobody =>
    have same : update t.pending jobId none = t.pending := by
      rw [← nobody, Function.update_eq_self]
    rw [nobody, Option.getD_none, map_nil, append_nil, Function.update_eq_self, same]
  grind

theorem finish_eq : t.finish jobId kind status =
    { t.record jobId kind status with
      pending := update t.pending jobId none
      completed := update t.completed jobId (some status)
      assemblers := t.assemblers
      listeners := t.listeners
      received := update t.received jobId
        (t.received jobId ++ ((t.pending jobId).getD []).map fun sender => (sender, status))
      tally := t.tally ++ [(jobId, status.isCompleted)] } := by
  rw [finish, send_eq, record_eq]

end JobTracker

namespace Work

variable {Circuit : Type}

def requests : Work Circuit → List ProofRequest
  | .submitted request => [request]
  | .dispatched batch => batch.requests
  | .queued _ _ | .handed _ _ => []
  | .synthesized _ job | .picked job | .started job =>
    if job.partitionIndex.isSome then [] else job.members

def parts : Work Circuit → List PartitionWorkItem
  | .submitted _ | .dispatched _ => []
  | .queued _ item | .handed _ item => [item]
  | .synthesized _ job | .picked job | .started job =>
    (job.partitionIndex.map fun pIdx => ⟨job.request, pIdx⟩).toList

end Work

variable {other : JobId} {trouble : Bool}

namespace Engine

variable {Circuit : Type}

def requestsIn (e : Engine Circuit) : List ProofRequest :=
  e.work.flatMap Work.requests ++ e.collector.requests

def partsIn (e : Engine Circuit) : List PartitionWorkItem :=
  e.work.flatMap Work.parts

def requestsOf (jobId : JobId) (requests : Multiset ProofRequest) : Multiset ProofRequest :=
  requests.filter fun req => req.jobId = jobId

theorem requestsOf_cons (r : ProofRequest) (requests : Multiset ProofRequest) :
    requestsOf r.jobId (r ::ₘ requests) = r ::ₘ requestsOf r.jobId requests :=
  Multiset.filter_cons_of_pos _ rfl

theorem requestsOf_cons_other {r : ProofRequest} (apart : other ≠ r.jobId)
    (requests : Multiset ProofRequest) :
    requestsOf other (r ::ₘ requests) = requestsOf other requests :=
  Multiset.filter_cons_of_neg _ (Ne.symm apart)

def partsOf (jobId : JobId) (parts : Multiset PartitionWorkItem) : Multiset PartitionWorkItem :=
  parts.filter fun item => item.request.jobId = jobId

theorem partsOf_add (jobId : JobId) (left right : Multiset PartitionWorkItem) :
    partsOf jobId (left + right) = partsOf jobId left + partsOf jobId right :=
  Multiset.filter_add _ _ _

def view (e : Engine Circuit) (hand : Multiset ProofRequest) (loose : Multiset PartitionWorkItem)
    (jobId : JobId) : JobView where
  submitted := e.submitted.filter fun req => req.jobId = jobId
  listeners := e.tracker.listeners jobId
  pending := e.tracker.pending jobId
  received := e.tracker.received jobId
  completed := e.tracker.completed jobId
  assembler := e.tracker.assemblers jobId
  tally := (e.tracker.tally.filter fun entry => entry.1 = jobId).map Prod.snd
  split := e.split jobId
  troubled := e.troubled jobId
  arrived := e.arrived jobId
  held := requestsOf jobId (hand + ↑e.requestsIn)
  parts := partsOf jobId (loose + ↑e.partsIn)

section Views

variable (e : Engine Circuit) (hand : Multiset ProofRequest) (loose : Multiset PartitionWorkItem)
  (jobId : JobId) (r : ProofRequest) (kind : ProofKind) (status : JobStatus) (message : String)

def Changes (e' : Engine Circuit) (w : JobView) : Prop :=
  e'.view hand loose = update (e.view hand loose) jobId w

theorem hand_view : e.view (r ::ₘ hand) loose = update (e.view hand loose) r.jobId
    { e.view hand loose r.jobId with held := r ::ₘ (e.view hand loose r.jobId).held } := by
  refine eq_update_iff.mpr ⟨?_, fun other apart => ?_⟩
  · simp only [view, Multiset.cons_add, requestsOf_cons]
  · simp only [view, Multiset.cons_add, requestsOf_cons_other apart]

theorem loose_view (item : PartitionWorkItem) :
    e.view hand (item ::ₘ loose) = update (e.view hand loose) item.request.jobId
      { e.view hand loose item.request.jobId with
        parts := item ::ₘ (e.view hand loose item.request.jobId).parts } := by
  refine eq_update_iff.mpr ⟨?_, fun other apart => ?_⟩
  · simp only [view, partsOf, Multiset.cons_add, Multiset.filter_cons_of_pos]
  · simp only [view, partsOf, Multiset.cons_add, Multiset.filter_cons_of_neg, apart.symm,
      not_false_eq_true]

attribute [local simp] view track requestsIn partsIn

theorem trouble_view : Changes e hand loose r.jobId (e.trouble [r])
    { e.view hand loose r.jobId with troubled := true } := by
  refine eq_update_iff.mpr ⟨?_, fun other apart => ?_⟩
  · simp [trouble]
  · simp [trouble, apart.symm]

theorem finish_view : Changes e hand loose jobId (e.track (e.tracker.finish jobId kind status))
    ((e.view hand loose jobId).finish status) := by
  rw [JobTracker.finish_eq]
  refine eq_update_iff.mpr ⟨?_, fun other apart => ?_⟩
  · simp [JobView.finish]
  · simp [apart, apart.symm]

theorem setAssembler_view (state : Option PartitionedJobState) :
    Changes e hand loose jobId (e.track (e.tracker.setAssembler jobId state))
      { e.view hand loose jobId with assembler := state } := by
  refine eq_update_iff.mpr ⟨?_, fun other apart => ?_⟩
  · simp [JobTracker.setAssembler]
  · simp [JobTracker.setAssembler, apart]

theorem note_view (pIdx : Nat) (bytes : List UInt8) :
    Changes e hand loose r.jobId (e.note r pIdx (.ok bytes))
      ((e.view hand loose r.jobId).note pIdx bytes (e.view hand loose r.jobId).parts) := by
  refine eq_update_iff.mpr ⟨?_, fun other apart => ?_⟩
  · simp [note, JobView.note]
  · simp [note, apart]

theorem listen_view : Changes e hand loose jobId (e.track (e.tracker.listen jobId))
    (e.view hand loose jobId).listen := by
  refine eq_update_iff.mpr ⟨?_, fun other apart => ?_⟩
  · simp [JobTracker.listen, JobView.listen]
  · simp [JobTracker.listen, apart]

variable {e hand loose jobId r}

theorem Changes.here {e' : Engine Circuit} {w : JobView}
    (changes : Changes e hand loose jobId e' w) :
    e'.view hand loose jobId = w := by
  rw [show e'.view hand loose = _ from changes, update_self]

theorem Changes.trans {e₁ e₂ : Engine Circuit} {v w : JobView}
    (first : Changes e hand loose jobId e₁ v) (second : Changes e₁ hand loose jobId e₂ w) :
    Changes e hand loose jobId e₂ w := by
  rw [Changes, second, first, Function.update_idem]

theorem changes_nothing : Changes e hand loose jobId e (e.view hand loose jobId) :=
  (Function.update_eq_self _ _).symm

theorem Changes.finish {e₁ : Engine Circuit} {v : JobView}
    (first : Changes e hand loose jobId e₁ v) :
    Changes e hand loose jobId (e₁.track (e₁.tracker.finish jobId kind status))
      (v.finish status) := by
  have second := first.trans (finish_view e₁ hand loose jobId kind status)
  rwa [first.here] at second

variable (e hand loose jobId r)

def close (trouble : Bool) : Engine Circuit :=
  (e.trouble (if trouble then [r] else [])).track (e.tracker.finish r.jobId kind status)

theorem close_view {trouble : Bool} : Changes e hand loose r.jobId (e.close r kind status trouble)
    ((e.view hand loose r.jobId).close status trouble) := by
  cases trouble with
  | false => exact finish_view e hand loose r.jobId kind status
  | true => exact (trouble_view e hand loose r).finish kind status

theorem failPartition_view :
    Changes e hand loose jobId (e.track (e.tracker.failPartition jobId kind message))
      ((e.view hand loose jobId).failPartition message) := by
  have here : (e.view hand loose jobId).assembler = e.tracker.assemblers jobId := rfl
  rw [JobTracker.failPartition, JobView.failPartition, here]
  cases e.tracker.assemblers jobId with
  | none => exact changes_nothing
  | some state =>
    dsimp only
    split
    · exact changes_nothing
    · exact (setAssembler_view e hand loose jobId _).finish kind _

theorem partitionResult_view (lib : Library Circuit) (bytes : List UInt8) (pIdx : Nat) :
    Changes e hand loose jobId
      (e.track (e.tracker.processPartitionResult lib (.ok bytes) jobId pIdx kind))
      ((e.view hand loose jobId).arrive lib pIdx bytes) := by
  have here : (e.view hand loose jobId).assembler = e.tracker.assemblers jobId := rfl
  rw [JobTracker.processPartitionResult, JobView.arrive, here]
  cases e.tracker.assemblers jobId with
  | none => exact changes_nothing
  | some state =>
    dsimp only
    by_cases failed : state.failed = true
    · rw [if_pos failed, if_pos failed]
      exact changes_nothing
    rw [if_neg failed, if_neg failed]
    cases state.assembler.insert pIdx bytes with
    | error fault => exact changes_nothing
    | ok assembler =>
      dsimp only
      by_cases complete : assembler.isComplete = true
      · rw [if_pos complete, if_pos complete]
        have removed := setAssembler_view e hand loose jobId none
        cases assembler.assemble with
        | error fault => exact removed
        | ok finalProof => exact removed.finish _ _
      · rw [if_neg complete, if_neg complete]
        exact setAssembler_view e hand loose jobId _

theorem awaitProof_view : Changes e hand loose jobId (e.track (e.tracker.awaitProof jobId))
    (e.view hand loose jobId).awaitProof := by
  have status : (e.view hand loose jobId).completed = e.tracker.completed jobId := rfl
  have senders : (e.view hand loose jobId).pending = e.tracker.pending jobId := rfl
  rw [JobTracker.awaitProof, JobView.awaitProof, status, senders]
  cases e.tracker.completed jobId with
  | some status =>
    refine eq_update_iff.mpr ⟨?_, fun other apart => ?_⟩
    · simp [JobView.hear]
    · simp [apart]
  | none =>
    dsimp only
    split
    · exact listen_view e hand loose jobId
    · exact changes_nothing

end Views

variable (lib : Library Circuit) (proves : Circuit → List UInt8 → Prop) (flaws : Flaws)

def Sound (e : Engine Circuit) (hand : Multiset ProofRequest)
    (loose : Multiset PartitionWorkItem) : Prop :=
  ∀ jobId, JobView.Phase lib proves flaws (e.view hand loose jobId)

variable {lib proves flaws} {e e' : Engine Circuit} {hand hand' : Multiset ProofRequest}
  {loose loose' : Multiset PartitionWorkItem} {r : ProofRequest} {item : PartitionWorkItem}

theorem Sound.regroup (sound : Sound lib proves flaws e hand loose)
    (requests : hand' + ↑e'.requestsIn = hand + ↑e.requestsIn)
    (parts : loose' + ↑e'.partsIn = loose + ↑e.partsIn) (tracker : e'.tracker = e.tracker)
    (submitted : e'.submitted = e.submitted) (split : e'.split = e.split)
    (troubled : e'.troubled = e.troubled) (arrived : e'.arrived = e.arrived) :
    Sound lib proves flaws e' hand' loose' := by
  intro jobId
  have same : e'.view hand' loose' jobId = e.view hand loose jobId := by
    grind [view]
  rw [same]
  exact sound jobId

theorem Sound.touch {jobId : JobId} {v w : JobView} (sound : Sound lib proves flaws e hand' loose')
    (before : e.view hand' loose' = update (e.view hand loose) jobId v)
    (changes : Changes e hand loose jobId e' w)
    (here : JobView.Phase lib proves flaws v → JobView.Phase lib proves flaws w) :
    Sound lib proves flaws e' hand loose := by
  intro other
  have phase := sound other
  rw [before] at phase
  rw [show e'.view hand loose = _ from changes]
  grind

theorem Sound.put (items : List (Work Circuit))
    (sound : Sound lib proves flaws e (↑(items.flatMap Work.requests) + hand)
      (↑(items.flatMap Work.parts) + loose)) :
    Sound lib proves flaws (e.put items) hand loose := by
  refine sound.regroup ?_ ?_ rfl rfl rfl rfl rfl
  · simp only [requestsIn, Engine.put, flatMap_append, ← Multiset.coe_add]
    abel
  · simp only [partsIn, Engine.put, flatMap_append, ← Multiset.coe_add]
    abel

/-- Nothing waits under the key. -/
def Free (e : Engine Circuit) (key : Option (WorkQueue × UInt64 × Nat)) : Prop :=
  ∀ other ∈ e.work, other.key ≠ key

instance Free.decidable (e : Engine Circuit) (key : Option (WorkQueue × UInt64 × Nat)) :
    Decidable (e.Free key) :=
  inferInstanceAs (Decidable (∀ _ ∈ _, _))

theorem push_free {item : Work Circuit} (free : e.Free item.key) : e.push item = e.put [item] := by
  have kept : e.work.filter (fun other => other.key ≠ item.key) = e.work :=
    filter_eq_self.mpr fun other member => decide_eq_true (free other member)
  rw [Engine.push, kept]
  rfl

theorem Sound.push {item : Work Circuit} (free : e.Free item.key)
    (sound : Sound lib proves flaws e (↑item.requests + hand) (↑item.parts + loose)) :
    Sound lib proves flaws (e.push item) hand loose := by
  rw [push_free free]
  refine Sound.put _ ?_
  rw [flatMap_singleton, flatMap_singleton]
  exact sound

theorem Sound.pushAll {items : List (Work Circuit)} (free : ∀ item ∈ items, e.Free item.key)
    (apart : items.Pairwise fun item later => item.key ≠ later.key)
    (sound : Sound lib proves flaws e (↑(items.flatMap Work.requests) + hand)
      (↑(items.flatMap Work.parts) + loose)) :
    Sound lib proves flaws (items.foldl Engine.push e) hand loose := by
  induction items generalizing e with
  | nil =>
    rw [flatMap_nil, flatMap_nil, Multiset.coe_nil, Multiset.coe_nil, zero_add, zero_add] at sound
    exact sound
  | cons item rest ih =>
    obtain ⟨first, later⟩ := pairwise_cons.mp apart
    obtain ⟨here, others⟩ := forall_mem_cons.mp free
    refine ih (fun next member => ?_) later (Sound.push here ?_)
    · rw [push_free here]
      exact forall_mem_cons.mpr ⟨first next member, others next member⟩
    · rw [flatMap_cons, flatMap_cons, ← Multiset.coe_add, ← Multiset.coe_add, add_assoc,
        add_assoc] at sound
      exact sound

section Taking

variable [DecidableEq Circuit]

theorem Free.remove {key : Option (WorkQueue × UInt64 × Nat)} (free : e.Free key)
    (item : Work Circuit) : (e.remove item).Free key :=
  fun other member => free other (mem_of_mem_erase member)

theorem coe_flatMap_erase {α : Type} {work : List (Work Circuit)} {item : Work Circuit}
    (member : item ∈ work) (f : Work Circuit → List α) :
    (↑(work.flatMap f) : Multiset α) = ↑(f item) + ↑((work.erase item).flatMap f) := by
  rw [Multiset.coe_add, Multiset.coe_eq_coe]
  exact (perm_cons_erase member).flatMap_right f

theorem Sound.take (sound : Sound lib proves flaws e hand loose) {item : Work Circuit}
    (member : item ∈ e.work) :
    Sound lib proves flaws (e.remove item) (↑item.requests + hand) (↑item.parts + loose) := by
  refine sound.regroup ?_ ?_ rfl rfl rfl rfl rfl
  · have parts := coe_flatMap_erase member Work.requests
    simp only [requestsIn, ← Multiset.coe_add, parts]
    abel
  · have parts := coe_flatMap_erase member Work.parts
    simp only [partsIn, parts]
    abel

end Taking

theorem Sound.close (sound : Sound lib proves flaws e (r ::ₘ hand) loose) (kind : ProofKind)
    {status : JobStatus} (deserved : JobView.Deserved lib proves flaws r status trouble) :
    Sound lib proves flaws (e.close r kind status trouble) hand loose :=
  sound.touch (hand_view e hand loose r) (close_view e hand loose r kind status)
    fun phase => phase.close rfl deserved

def closeAll (kind : ProofKind) (trouble : Bool) (e : Engine Circuit) :
    List (ProofRequest × JobStatus) → Engine Circuit
  | [] => e
  | (r, status) :: rest => closeAll kind trouble (e.close r kind status trouble) rest

theorem closeAll_false (kind : ProofKind) (answers : List (ProofRequest × JobStatus)) :
    closeAll kind false e answers = e.track (e.tracker.finishAll kind answers) := by
  induction answers generalizing e with
  | nil => rfl
  | cons answer rest ih =>
    rw [closeAll, ih]
    rfl

theorem trouble_append (front back : List ProofRequest) :
    (e.trouble front).trouble back = e.trouble (front ++ back) := by
  unfold trouble
  grind

theorem closeAll_true (kind : ProofKind) (answers : List (ProofRequest × JobStatus)) :
    closeAll kind true e answers =
      (e.trouble (answers.map Prod.fst)).track (e.tracker.finishAll kind answers) := by
  induction answers generalizing e with
  | nil => rfl
  | cons answer rest ih =>
    obtain ⟨r, status⟩ := answer
    rw [closeAll, ih, map_cons, ← singleton_append, ← trouble_append]
    rfl

theorem Sound.closeAll {answers : List (ProofRequest × JobStatus)}
    (sound : Sound lib proves flaws e (↑(answers.map Prod.fst) + hand) loose) (kind : ProofKind)
    (deserved : ∀ answer ∈ answers, JobView.Deserved lib proves flaws answer.1 answer.2 trouble) :
    Sound lib proves flaws (Engine.closeAll kind trouble e answers) hand loose := by
  induction answers generalizing e with
  | nil =>
    rw [map_nil, Multiset.coe_nil, zero_add] at sound
    exact sound
  | cons answer rest ih =>
    rw [map_cons, ← Multiset.cons_coe, Multiset.cons_add] at sound
    exact ih (sound.close kind (deserved answer mem_cons_self))
      (forall_mem_cons.mp deserved).2

theorem Sound.forget {requests : List ProofRequest}
    (sound : Sound lib proves flaws e (↑requests + hand) loose) (unfair : flaws.unfair = true) :
    Sound lib proves flaws (e.trouble requests) hand loose := by
  induction requests generalizing e with
  | nil =>
    rw [Multiset.coe_nil, zero_add] at sound
    exact sound
  | cons r rest ih =>
    rw [← singleton_append, ← trouble_append]
    rw [← Multiset.cons_coe, Multiset.cons_add] at sound
    exact ih (sound.touch (hand_view e _ loose r) (trouble_view e _ loose r)
      fun phase => phase.forget rfl unfair)

theorem partsOf_partitionItems (lib : Library Circuit) (r : ProofRequest) :
    partsOf r.jobId ↑(partitionItems lib r) = ↑(partitionItems lib r) := by
  refine Multiset.filter_eq_self.mpr fun item member => ?_
  obtain ⟨pIdx, -, rfl⟩ := mem_map.mp (Multiset.mem_coe.mp member)
  rfl

theorem partsOf_partitionItems_other {lib : Library Circuit} (apart : other ≠ r.jobId) :
    partsOf other ↑(partitionItems lib r) = 0 := by
  refine Multiset.filter_eq_nil.mpr fun item member => ?_
  obtain ⟨pIdx, -, rfl⟩ := mem_map.mp (Multiset.mem_coe.mp member)
  exact apart.symm

theorem Sound.register (sound : Sound lib proves flaws e (r ::ₘ hand) loose)
    (partitioned : 0 < (lib.circuits r).length) :
    Sound lib proves flaws (e.register lib r) hand (↑(partitionItems lib r) + loose) := by
  intro other
  have phase := sound other
  rw [hand_view] at phase
  by_cases same : other = r.jobId
  · subst same
    rw [update_self] at phase
    have registered := phase.register rfl partitioned
    simp only [view, Engine.register, JobTracker.setAssembler, update_self, add_assoc,
      partsOf_add, partsOf_partitionItems] at registered ⊢
    exact registered
  · rw [update_of_ne same] at phase
    simp only [view, Engine.register, JobTracker.setAssembler, update_of_ne same, partsOf_add,
      partsOf_partitionItems_other same, zero_add] at phase ⊢
    exact phase

section

variable (sound : Sound lib proves flaws e hand (item ::ₘ loose))
include sound

theorem Sound.skip (failed : e.tracker.hasFailed item.request.jobId = true) :
    Sound lib proves flaws e hand loose := by
  refine sound.touch (loose_view e hand loose item) changes_nothing fun phase => ?_
  refine phase.skip rfl fun state assembler => ?_
  have here : e.tracker.assemblers item.request.jobId = some state := assembler
  simpa [JobTracker.hasFailed, here] using failed

variable (kind : ProofKind)
include kind

theorem Sound.failStart (message : String)
    (once : flaws.recounts = true ∨ e.tracker.completed item.request.jobId = none) :
    Sound lib proves flaws (e.close item.request kind (.failed message) true) hand loose :=
  sound.touch (loose_view e hand loose item) (close_view e hand loose item.request kind _)
    fun phase => phase.failStart rfl message once

theorem Sound.failPartition (message : String)
    (once : flaws.recounts = true ∨ e.tracker.completed item.request.jobId = none ∨
      e.tracker.hasFailed item.request.jobId = true) :
    Sound lib proves flaws ((e.trouble [item.request]).track
      (e.tracker.failPartition item.request.jobId kind message)) hand loose := by
  have troubled := trouble_view e hand loose item.request
  have changes := troubled.trans (failPartition_view (e.trouble [item.request]) hand loose
    item.request.jobId kind message)
  rw [troubled.here] at changes
  refine sound.touch (loose_view e hand loose item) changes fun phase => ?_
  refine phase.failPartition rfl message (once.imp_right (Or.imp_right fun failed state here => ?_))
  have here : e.tracker.assemblers item.request.jobId = some state := here
  simpa [JobTracker.hasFailed, here] using failed

theorem Sound.arrive
    {bytes : List UInt8} (sized : bytes.length = grothProofBytes)
    (proved : ∀ circuit, (lib.circuits item.request)[item.partitionIdx]? = some circuit →
      proves circuit bytes) (verifier : flaws.unfair = false → JobView.Verifies lib proves) :
    Sound lib proves flaws ((e.note item.request item.partitionIdx (.ok bytes)).track
      (e.tracker.processPartitionResult lib (.ok bytes) item.request.jobId item.partitionIdx
        kind)) hand loose := by
  have noted := note_view e hand loose item.request item.partitionIdx bytes
  have changes := noted.trans (partitionResult_view (e.note item.request item.partitionIdx
    (.ok bytes)) hand loose item.request.jobId kind lib bytes item.partitionIdx)
  rw [noted.here] at changes
  exact sound.touch (loose_view e hand loose item) changes
    fun phase => phase.arrive rfl sized proved verifier

end

variable (sound : Sound lib proves flaws e hand loose)
include sound

theorem Sound.awaitProof (jobId : JobId) :
    Sound lib proves flaws (e.track (e.tracker.awaitProof jobId)) hand loose :=
  sound.touch changes_nothing (awaitProof_view e hand loose jobId) fun phase => phase.awaitProof

theorem Sound.submit (distinct : ∀ req ∈ e.submitted, req.jobId ≠ r.jobId) : Sound lib proves flaws
      { e with
        tracker := e.tracker.listen r.jobId
        submitted := e.submitted ++ [r] } (r ::ₘ hand) loose := by
  intro other
  by_cases same : other = r.jobId
  · subst same
    have fresh : (e.submitted.filter fun req => req.jobId = r.jobId) = [] :=
      filter_eq_nil_iff.mpr fun req member => by simpa using distinct req member
    have free := (sound r.jobId).fresh fresh
    have listed : ((e.submitted ++ [r]).filter fun req => req.jobId = r.jobId) = [r] := by
      grind
    have idle : requestsOf r.jobId (hand + ↑e.requestsIn) = 0 := congrArg JobView.held free
    have held : requestsOf r.jobId (r ::ₘ hand + ↑e.requestsIn) = {r} := by
      rw [Multiset.cons_add, requestsOf_cons, idle]
      rfl
    have same : ({ e with
          tracker := e.tracker.listen r.jobId
          submitted := e.submitted ++ [r] } : Engine Circuit).view (r ::ₘ hand) loose r.jobId =
        { (e.view hand loose r.jobId).listen with
          submitted := (e.submitted ++ [r]).filter fun req => req.jobId = r.jobId
          held := requestsOf r.jobId (r ::ₘ hand + ↑e.requestsIn) } := by
      rw [← (listen_view e hand loose r.jobId).here]
      rfl
    rw [same, listed, held, free]
    exact JobView.phase_submitted r
  · have phase := sound other
    simp only [view, JobTracker.listen, update_of_ne same, Multiset.cons_add,
      requestsOf_cons_other same, filter_append, filter_singleton] at phase ⊢
    rw [decide_eq_false (Ne.symm same), cond_false, append_nil]
    exact phase

end Engine

end Curio.Cuzk
