import Curio.Cuzk.EngineRules

/-! The steps of the engine keep every job in its phases.

What an item of work says of its requests is kept beside that: a batch is of one kind, and a job for
the GPU is what a synthesis made of a partition or of a batch. -/

namespace Curio.Cuzk

open List StepMachine
open GoRuntime (Bytes)

namespace ProofBatch

def Uniform (batch : ProofBatch) : Prop :=
  ∀ req ∈ batch.requests, req.proofKind = batch.proofKind

theorem single_uniform {request : ProofRequest} {now : Nat} : (single request now).Uniform := by
  intro req member
  rw [mem_singleton.mp member]
  rfl

end ProofBatch

namespace BatchCollector

variable (c : BatchCollector) (request : ProofRequest) (now : Nat)

/-- The batches that a collector lets go and what it keeps are what it had, in order. -/
def Lets (before : List ProofRequest) (left : List ProofBatch × BatchCollector) : Prop :=
  left.1.flatMap ProofBatch.requests ++ left.2.requests = before

theorem add_lets : Lets (c.requests ++ [request]) ((c.add request now).1.toList,
    (c.add request now).2) := by
  unfold add
  split
  case h_1 batch pending =>
    have had : c.requests = batch.requests := by rw [requests, pending]; rfl
    rw [had]
    split
    · grind [Lets, requests, ProofBatch.requests]
    · simp [Lets, requests, ProofBatch.requests, ProofBatch.single]
  case h_2 pending =>
    have had : c.requests = [] := by rw [requests, pending]; rfl
    rw [had]
    split
    · simp [Lets, requests, ProofBatch.requests, ProofBatch.single]
    · simp [Lets, requests, ProofBatch.requests, ProofBatch.single]

theorem forceFlush_lets : Lets c.requests (c.forceFlush.1.toList, c.forceFlush.2) := by
  unfold forceFlush Lets requests
  cases c.pending with
  | none => rfl
  | some batch => simp

theorem checkTimeout_lets :
    Lets c.requests ((c.checkTimeout now).1.toList, (c.checkTimeout now).2) := by
  grind [Lets, requests, checkTimeout]

theorem route_lets : Lets (c.requests ++ [request]) (c.route request now) := by
  unfold route
  split
  · exact c.add_lets request now
  · have flushed := c.forceFlush_lets
    simp only [Lets] at flushed ⊢
    rw [← flushed]
    simp [ProofBatch.requests, ProofBatch.single, forceFlush, requests]

def Uniform : Prop :=
  ∀ batch, c.pending = some batch → batch.Uniform

def Sorted (left : List ProofBatch × BatchCollector) : Prop :=
  (∀ batch ∈ left.1, batch.Uniform) ∧ left.2.Uniform

variable {c}

theorem grown_uniform {batch : ProofBatch} (uniform : batch.Uniform)
    (same : batch.proofKind = request.proofKind) :
    ({ batch with others := batch.others ++ [request] } : ProofBatch).Uniform := by
  intro req member
  have either : req ∈ batch.requests ∨ req = request := by
    simpa [ProofBatch.requests, or_assoc] using member
  rcases either with before | rfl
  · exact uniform req before
  · exact same.symm

variable (uniform : c.Uniform)
include uniform

theorem add_sorted : Sorted ((c.add request now).1.toList, (c.add request now).2) := by
  unfold add
  split
  case h_1 batch pending =>
    split
    case isTrue same =>
      have grown := grown_uniform request (uniform batch pending) same
      dsimp only
      split
      · exact ⟨by simpa using grown, nofun⟩
      · grind [Sorted, Uniform]
    case isFalse =>
      refine ⟨by simpa using uniform batch pending, fun found kept => ?_⟩
      cases kept
      exact ProofBatch.single_uniform
  case h_2 =>
    split
    · exact ⟨by simpa using ProofBatch.single_uniform, nofun⟩
    · refine ⟨nofun, fun found kept => ?_⟩
      cases kept
      exact ProofBatch.single_uniform

theorem forceFlush_sorted : Sorted (c.forceFlush.1.toList, c.forceFlush.2) :=
  ⟨fun batch member => uniform batch (Option.mem_toList.mp member), nofun⟩

theorem checkTimeout_sorted : Sorted ((c.checkTimeout now).1.toList, (c.checkTimeout now).2) := by
  grind [Sorted, checkTimeout, Uniform]

theorem route_sorted : Sorted (c.route request now) := by
  unfold route
  split
  · exact add_sorted request now uniform
  · refine ⟨fun batch member => ?_, (forceFlush_sorted uniform).2⟩
    rcases mem_append.mp member with flushed | single
    · exact (forceFlush_sorted uniform).1 batch flushed
    · rw [mem_singleton.mp single]
      exact ProofBatch.single_uniform

end BatchCollector

namespace Work

variable {Circuit : Type} (lib : Library Circuit)

/-- A job for the GPU is what a synthesis made of a partition or of a batch. -/
def MadeBy (job : SynthesizedJob Circuit) : Prop :=
  (∃ item, job = Engine.synthesizePartition lib item) ∨
    ∃ batch : ProofBatch, batch.Uniform ∧ job = Engine.synthesizeBatch lib batch

def Formed (submitted : List ProofRequest) : Work Circuit → Prop
  | .submitted request => request ∈ submitted
  | .queued _ _ | .handed _ _ => True
  | .dispatched batch => batch.Uniform
  | .synthesized _ job | .picked job | .started job => MadeBy lib job

variable {lib}

theorem Formed.mono {item : Work Circuit} {submitted more : List ProofRequest}
    (formed : item.Formed lib submitted) (grown : submitted ⊆ more) : item.Formed lib more := by
  cases item with
  | submitted request => exact grown formed
  | _ => exact formed

end Work

variable {proofs : List Bytes} {outcome : Outcome Unit} {message : String} {kind : ProofKind}

namespace Engine

variable {Circuit : Type} (lib : Library Circuit)

structure Formed (e : Engine Circuit) : Prop where
  work : ∀ item ∈ e.work, item.Formed lib e.submitted
  collector : e.collector.Uniform
  order : e.taken = e.dispatched ++ e.collector.requests
  known : e.taken ⊆ e.submitted

variable {lib} {e e' : Engine Circuit}

theorem formed_new {config : BatchConfig} : Formed lib (new config) :=
  ⟨nofun, nofun, rfl, nofun⟩

theorem Formed.put (formed : Formed lib e) {items : List (Work Circuit)}
    (each : ∀ item ∈ items, item.Formed lib e.submitted) : Formed lib (e.put items) :=
  { formed with work := forall_mem_append.mpr ⟨each, formed.work⟩ }

theorem Formed.push (formed : Formed lib e) {item : Work Circuit}
    (here : item.Formed lib e.submitted) : Formed lib (e.push item) := by
  refine { formed with work := forall_mem_cons.mpr ⟨here, fun other member => ?_⟩ }
  exact formed.work other (mem_of_mem_filter member)

theorem Formed.pushAll (formed : Formed lib e) {items : List (Work Circuit)}
    (each : ∀ item ∈ items, ∀ submitted, item.Formed lib submitted) :
    Formed lib (items.foldl Engine.push e) := by
  induction items generalizing e with
  | nil => exact formed
  | cons item rest ih =>
    obtain ⟨here, later⟩ := forall_mem_cons.mp each
    exact ih (formed.push (here _)) later

theorem Formed.flush {left : List ProofBatch × BatchCollector} {before : List ProofRequest}
    (work : ∀ item ∈ e.work, item.Formed lib e.submitted) (known : e.taken ⊆ e.submitted)
    (order : e.taken = e.dispatched ++ before) (lets : BatchCollector.Lets before left)
    (sorted : BatchCollector.Sorted left) : Formed lib (e.flush left) := by
  refine ⟨forall_mem_append.mpr ⟨fun item member => ?_, work⟩, sorted.2, ?_, known⟩
  · obtain ⟨batch, inside, rfl⟩ := mem_map.mp member
    exact sorted.1 batch inside
  · show e.taken = e.dispatched ++ left.1.flatMap ProofBatch.requests ++ left.2.requests
    rw [append_assoc, show _ ++ left.2.requests = _ from lets]
    exact order

theorem Formed.remove [DecidableEq Circuit] (formed : Formed lib e) (item : Work Circuit) :
    Formed lib (e.remove item) :=
  { formed with work := fun other member => formed.work other (mem_of_mem_erase member) }

section Batches

variable {proves : Circuit → Bytes → Prop} {flaws : Flaws} {e : Engine Circuit}
  {hand : Multiset ProofRequest} {loose : Multiset PartitionWorkItem}

variable {left : List ProofBatch × BatchCollector} {proofs : List Bytes}

theorem Sound.flush {extra : List ProofRequest}
    (sound : Sound lib proves flaws e (↑extra + hand) loose)
    (lets : BatchCollector.Lets (e.collector.requests ++ extra) left) :
    Sound lib proves flaws (e.flush left) hand loose := by
  have requests : (left.1.map Work.dispatched : List (Work Circuit)).flatMap Work.requests =
      left.1.flatMap ProofBatch.requests := flatMap_map ..
  have parts : (left.1.map Work.dispatched : List (Work Circuit)).flatMap Work.parts = [] := by
    simp [Work.parts]
  have moved : (↑(left.1.flatMap ProofBatch.requests) + ↑left.2.requests :
      Multiset ProofRequest) = ↑e.collector.requests + ↑extra := by
    exact congrArg _ lets
  refine sound.regroup ?_ ?_ rfl rfl rfl rfl rfl
  · simp only [requestsIn, Engine.flush, Engine.put, flatMap_append, ← Multiset.coe_add]
    grind
  · simp only [partsIn, Engine.flush, Engine.put, flatMap_append, parts, nil_append]

theorem Sound.flush_own (sound : Sound lib proves flaws e hand loose)
    (lets : BatchCollector.Lets e.collector.requests left) :
    Sound lib proves flaws (e.flush left) hand loose := by
  rw [← zero_add hand] at sound
  rw [← append_nil e.collector.requests] at lets
  exact sound.flush lets

theorem forall₂_flatMap {requests : List ProofRequest}
    (each : Forall₂ proves (requests.flatMap lib.circuits) proofs) :
    ∃ groups : List (List Bytes),
      Forall₂ (fun req group => Forall₂ proves (lib.circuits req) group) requests
        groups ∧ proofs = groups.flatten := by
  induction requests generalizing proofs with
  | nil =>
    cases each
    exact ⟨[], .nil, rfl⟩
  | cons req rest ih =>
    rw [flatMap_cons] at each
    have front := forall₂_take (lib.circuits req).length each
    have back := forall₂_drop (lib.circuits req).length each
    rw [take_left] at front
    rw [drop_left] at back
    obtain ⟨groups, proved, same⟩ := ih back
    refine ⟨proofs.take (lib.circuits req).length :: groups, .cons front proved, ?_⟩
    rw [flatten_cons, ← same, take_append_drop]

theorem flatten_length (sized : ∀ proof ∈ proofs, proof.length = grothProofBytes) :
    proofs.flatten.length = proofs.length * grothProofBytes := by
  induction proofs with
  | nil => simp
  | cons proof rest ih => grind

theorem splitFrom_groups {groups : List (List Bytes)}
    (sized : ∀ group ∈ groups, ∀ proof ∈ group, proof.length = grothProofBytes)
    (front : Bytes) :
    splitFrom (front ++ groups.flatten.flatten) front.length (groups.map length) =
      groups.map flatten := by
  induction groups generalizing front with
  | nil => rfl
  | cons group rest ih =>
    have length := flatten_length (sized group mem_cons_self)
    have tail := ih (forall_mem_cons.mp sized).2
      (front ++ group.flatten)
    rw [length_append, length, append_assoc] at tail
    rw [map_cons, map_cons, splitFrom, flatten_cons, flatten_append, tail,
      drop_left, take_left' length]

end Batches

section Steps

variable {proves : Circuit → Bytes → Prop} {flaws : Flaws} {e : Engine Circuit}
  {hand : Multiset ProofRequest} {loose : Multiset PartitionWorkItem} {batch : ProofBatch}
  {item : PartitionWorkItem}

variable (lib proves flaws) in
/-- What is assumed of the libraries: every request has a circuit, a proof has its size, and where
fair answers are asked for the verifier accepts the proofs of the prover. -/
structure Premises : Prop where
  whole : ∀ req, 0 < (lib.circuits req).length
  sized : ∀ circuit bytes, proves circuit bytes → bytes.length = grothProofBytes
  verifier : flaws.unfair = false → JobView.Verifies lib proves

theorem Premises.sized_all (premises : Premises lib proves flaws) {synth : List Circuit}
    (each : Forall₂ proves synth proofs) :
    ∀ proof ∈ proofs, proof.length = grothProofBytes := by
  induction each with
  | nil => nofun
  | cons head tail ih => exact forall_mem_cons.mpr ⟨premises.sized _ _ head, ih⟩

theorem synthesizeBatch_members : (synthesizeBatch lib batch).members = batch.requests := by
  grind [SynthesizedJob.members, synthesizeBatch, ProofBatch.requests]

theorem failBatch_eq (message : String) : e.failBatch batch message =
    closeAll batch.proofKind true e (batch.requests.map fun req => (req, .failed message)) := by
  rw [closeAll_true, map_map]
  exact congrArg (fun requests => (e.trouble requests).track _) (map_id _).symm

theorem Sound.failBatch (sound : Sound lib proves flaws e (↑batch.requests + hand) loose)
    (message : String) : Sound lib proves flaws (e.failBatch batch message) hand loose := by
  rw [failBatch_eq]
  refine Sound.closeAll ?_ _ fun answer member => ?_
  · rw [map_map]
    exact (map_id batch.requests).symm ▸ sound
  · obtain ⟨req, -, rfl⟩ := mem_map.mp member
    exact JobView.deserved_failed req message

/-- The queues have room for what the processing of a batch pushes. -/
def Room (e : Engine Circuit) (batch : ProofBatch) : Prop :=
  ∀ pIdx, e.Free (some
    (if isPartitioned batch then (.synthWorkQueue, e.nextJobSeq, pIdx) else (.gpuWorkQueue, 0, 0)))

theorem Room.remove [DecidableEq Circuit] (room : e.Room batch) (item : Work Circuit) :
    (e.remove item).Room batch :=
  fun pIdx => (room pIdx).remove item

theorem Sound.processPartitioned (premises : Premises lib proves flaws) {req : ProofRequest}
    (sound : Sound lib proves flaws e (req ::ₘ hand) loose) (outcome : Outcome Unit)
    (room : outcome.isOk → ∀ pIdx, e.Free (some (.synthWorkQueue, e.nextJobSeq, pIdx))) :
    Sound lib proves flaws (e.processPartitioned lib req outcome) hand loose := by
  cases outcome with
  | ok value =>
    refine Sound.pushAll ?_ ?_ ?_
    · intro item member
      obtain ⟨part, -, rfl⟩ := mem_map.mp member
      exact room rfl part.partitionIdx
    · rw [partitionItems, map_map, pairwise_map]
      refine pairwise_lt_range.imp fun before same => ?_
      cases same
      exact absurd before (Nat.lt_irrefl _)
    · have requests : ((partitionItems lib req).map (Work.queued e.nextJobSeq) :
          List (Work Circuit)).flatMap Work.requests = [] := by simp [Work.requests]
      have parts : ((partitionItems lib req).map (Work.queued e.nextJobSeq) :
          List (Work Circuit)).flatMap Work.parts = partitionItems lib req := by
        simp [flatMap_map, Work.parts]
      rw [requests, parts, Multiset.coe_nil, zero_add]
      exact sound.register (premises.whole req)
  | failed message | panicked message => exact sound.close _ (JobView.deserved_failed req _)

theorem Sound.processBatch (premises : Premises lib proves flaws)
    (sound : Sound lib proves flaws e (↑batch.requests + hand) loose) (outcome : Outcome Unit)
    (room : outcome.isOk → e.Room batch) :
    Sound lib proves flaws (e.processBatch lib batch outcome) hand loose := by
  unfold Engine.processBatch
  unfold Room at room
  split
  case isTrue partitioned =>
    have alone : batch.others = [] := (of_decide_eq_true partitioned).2
    rw [ProofBatch.requests, alone, ← Multiset.cons_coe, Multiset.coe_nil, Multiset.cons_add,
      zero_add] at sound
    simp only [if_pos partitioned] at room
    exact sound.processPartitioned premises outcome room
  case isFalse whole =>
    simp only [if_neg whole] at room
    cases outcome with
    | ok value =>
      refine Sound.push (room rfl 0) ?_
      have requests : (Work.synthesized 0 (synthesizeBatch lib batch)).requests = batch.requests :=
        synthesizeBatch_members
      have parts : (Work.synthesized 0 (synthesizeBatch lib batch)).parts = [] := rfl
      rw [requests, parts, Multiset.coe_nil, zero_add]
      exact sound
    | failed message | panicked message => exact sound.failBatch _

theorem Sound.synthesize (sound : Sound lib proves flaws e hand (item ::ₘ loose)) {jobSeq : UInt64}
    (room : outcome.isOk → e.Free (some (.gpuWorkQueue, jobSeq, item.partitionIdx)))
    (once : outcome.isOk ∨ flaws.recounts = true ∨
      e.tracker.completed item.request.jobId = none ∨
      e.tracker.hasFailed item.request.jobId = true) :
    Sound lib proves flaws (e.synthesize lib jobSeq item outcome) hand loose := by
  cases outcome with
  | ok value =>
    refine Sound.push (room rfl) ?_
    show Sound lib proves flaws e (0 + hand) ({item} + loose)
    rw [zero_add]
    exact sound
  | failed message | panicked message => exact sound.failPartition _ _ (once.resolve_left nofun)

theorem MadeBy.cases {job : SynthesizedJob Circuit} (made : Work.MadeBy lib job) :
    (∃ item, job = synthesizePartition lib item ∧ Work.requests (.started job) = [] ∧
      Work.parts (.started job) = [item]) ∨
    ∃ batch : ProofBatch, batch.Uniform ∧ job = synthesizeBatch lib batch ∧
      Work.requests (.started job) = batch.requests ∧ Work.parts (.started job) = [] := by
  rcases made with ⟨item, rfl⟩ | ⟨batch, uniform, rfl⟩
  · exact .inl ⟨item, rfl, rfl, rfl⟩
  · exact .inr ⟨batch, uniform, rfl, synthesizeBatch_members, rfl⟩

theorem Sound.failStart_batch (sound : Sound lib proves flaws e (↑batch.requests + hand) loose)
    (fair : flaws.unfair = true ∨ batch.others = []) :
    Sound lib proves flaws (e.failStart (synthesizeBatch lib batch) message) hand loose := by
  rw [ProofBatch.requests, ← Multiset.cons_coe, Multiset.cons_add] at sound
  have closed := sound.close batch.first.proofKind (JobView.deserved_failed batch.first message)
  have same : e.failStart (synthesizeBatch lib batch) message =
      (e.close batch.first batch.first.proofKind (.failed message) true).trouble batch.others := by
    have members : affected (synthesizeBatch lib batch) = [batch.first] ++ batch.others :=
      synthesizeBatch_members
    rw [Engine.failStart, members, ← trouble_append]
    rfl
  rw [same]
  rcases fair with unfair | alone
  · exact closed.forget unfair
  · rw [alone, Multiset.coe_nil, zero_add] at closed
    rw [alone]
    exact closed

theorem start_not_ok (job : SynthesizedJob Circuit) (bad : outcome ≠ .ok ()) :
    ¬outcome.isOk = true ∧ ∃ message, e.start job outcome = e.failStart job message := by
  cases outcome with
  | ok value => exact absurd rfl bad
  | failed message => exact ⟨nofun, message, rfl⟩
  | panicked message => exact ⟨nofun, _, rfl⟩

theorem others_nil (single : (synthesizeBatch lib batch).batchRequests = []) :
    batch.others = [] := by
  by_contra several
  exact absurd ((if_neg several).symm.trans single) nofun

variable {groups : List (List Bytes)} {requests : List ProofRequest}
  {outcome : Outcome Bytes} {bytes : Bytes}

theorem batchStatuses_fst
    (each : Forall₂ (fun req group => Forall₂ proves (lib.circuits req) group) requests
      groups) {i : Nat} :
    (JobTracker.batchStatuses lib kind i (groups.map flatten) requests).map Prod.fst =
      requests := by
  induction each generalizing i with
  | nil => rfl
  | cons head tail ih =>
    rw [map_cons, JobTracker.batchStatuses, map_cons, ih]

theorem batchStatuses_deserved (premises : Premises lib proves flaws)
    (each : Forall₂ (fun req group => Forall₂ proves (lib.circuits req) group) requests groups)
    (uniform : ∀ req ∈ requests, req.proofKind = kind) (i : Nat) :
    ∀ answer ∈ JobTracker.batchStatuses lib kind i (groups.map flatten) requests,
      JobView.Deserved lib proves flaws answer.1 answer.2 false := by
  induction each generalizing i with
  | nil => nofun
  | @cons req group requests groups head tail ih =>
    rw [map_cons, JobTracker.batchStatuses, forall_mem_cons]
    refine ⟨?_, ih (forall_mem_cons.mp uniform).2 (i + 1)⟩
    rw [← uniform req mem_cons_self]
    exact JobView.checked_deserved head premises.verifier _

theorem initial_sound (config : BatchConfig) :
    Formed lib (new config) ∧ Sound lib proves flaws (new config) 0 0 :=
  ⟨formed_new, fun _ => .unknown rfl⟩

def Gives (proves : Circuit → Bytes → Prop) (synth : List Circuit) (bytes : Bytes) :
    Prop :=
  ∃ proofs : List Bytes, Forall₂ proves synth proofs ∧ bytes = proofs.flatten

theorem Sound.exists_circuit (sound : Sound lib proves flaws e hand (item ::ₘ loose)) :
    ∃ circuit, (lib.circuits item.request)[item.partitionIdx]? = some circuit := by
  have phase := sound item.request.jobId
  rw [loose_view, Function.update_self] at phase
  obtain ⟨r, state, -, -, fits, -⟩ := phase.of_parts rfl
  obtain ⟨rfl, slot⟩ := fits.own item (Multiset.mem_cons_self item _)
  have inside := (List.getElem?_eq_some_iff.mp slot).1
  rw [fits.length] at inside
  exact ⟨_, List.getElem?_eq_getElem inside⟩

theorem Sound.finish_partition (premises : Premises lib proves flaws)
    (sound : Sound lib proves flaws e hand (item ::ₘ loose))
    (given : ∀ bytes, outcome = .ok bytes → Gives proves (synthesizePartition lib item).synth bytes)
    (once : outcome.isOk ∨ flaws.recounts = true ∨
      e.tracker.completed item.request.jobId = none ∨
      e.tracker.hasFailed item.request.jobId = true) :
    Sound lib proves flaws (e.finish lib (synthesizePartition lib item) outcome) hand loose := by
  cases outcome with
  | ok bytes =>
    obtain ⟨circuit, here⟩ := sound.exists_circuit
    obtain ⟨proofs, each, rfl⟩ := given bytes rfl
    rw [synthesizePartition, here] at each
    obtain ⟨proof, rest, proved, nothing, rfl⟩ := forall₂_cons_left_iff.mp each
    obtain rfl := forall₂_nil_left_iff.mp nothing
    rw [flatten_singleton]
    refine sound.arrive item.request.proofKind (premises.sized circuit proof proved) ?_
      premises.verifier
    grind
  | failed message | panicked message => exact sound.failPartition _ _ (once.resolve_left nofun)

theorem failAll_synthesizeBatch (uniform : batch.Uniform) (message : String) :
    (synthesizeBatch lib batch).failAll e.tracker message = e.tracker.finishAll batch.proofKind
      (batch.requests.map fun req => (req, .failed message)) := by
  rw [SynthesizedJob.failAll, synthesizeBatch_members]
  exact congrArg (e.tracker.finishAll · _) (uniform batch.first mem_cons_self)

theorem Sound.finish_failed (sound : Sound lib proves flaws e (↑batch.requests + hand) loose)
    (uniform : batch.Uniform) :
    Sound lib proves flaws ((e.trouble (synthesizeBatch lib batch).members).track
      ((synthesizeBatch lib batch).failAll e.tracker message)) hand loose := by
  rw [failAll_synthesizeBatch uniform, synthesizeBatch_members]
  exact sound.failBatch message

section Finish

variable {job : SynthesizedJob Circuit} {bytes : Bytes} (whole : job.partitionIndex = none)
include whole

theorem finish_single_eq (single : job.batchRequests = []) :
    e.finish lib job (.ok bytes) = e.close job.request job.request.proofKind
      (JobTracker.checked lib job.request.proofKind job.request bytes
        "PoRep proof self-check failed: pipeline single-sector proof did not verify") false := by
  rw [Engine.finish, whole, SynthesizedJob.processMonolithicResult]
  rw [if_pos single]
  rfl

theorem finish_split_eq (several : job.batchRequests ≠ [])
    (split : splitBatchedProofs bytes job.sectorBoundaries = .ok proofs) :
    e.finish lib job (.ok bytes) = closeAll job.request.proofKind false e
      (JobTracker.batchStatuses lib job.request.proofKind 0 proofs job.batchRequests) := by
  rw [Engine.finish, whole, SynthesizedJob.processMonolithicResult, closeAll_false]
  rw [if_neg several, split]
  rfl

theorem finish_mismatch_eq (several : job.batchRequests ≠ []) {fault : String}
    (split : splitBatchedProofs bytes job.sectorBoundaries = .error fault) :
    e.finish lib job (.ok bytes) =
      e.track (job.failAll e.tracker s!"proof split failed: {fault}") := by
  rw [Engine.finish, whole, SynthesizedJob.processMonolithicResult]
  rw [if_neg several, split]
  rfl

end Finish

section

variable (premises : Premises lib proves flaws)
  (sound : Sound lib proves flaws e (↑batch.requests + hand) loose)
include premises sound

section

variable (given : Gives proves (synthesizeBatch lib batch).synth bytes)
include given

theorem Sound.finish_single (alone : batch.others = []) :
    Sound lib proves flaws (e.finish lib (synthesizeBatch lib batch) (.ok bytes)) hand loose := by
  obtain ⟨proofs, each, rfl⟩ := given
  have synth : (synthesizeBatch lib batch).synth = lib.circuits batch.first :=
    if_neg (by simp [isMultiSector, alone])
  rw [synth] at each
  rw [ProofBatch.requests, alone, ← Multiset.cons_coe, Multiset.coe_nil, Multiset.cons_add,
    zero_add] at sound
  rw [finish_single_eq rfl (if_pos alone)]
  exact sound.close _ (JobView.checked_deserved each premises.verifier _)

/-- The proofs of a PoRep batch go to the requests that they were made for. -/
theorem Sound.finish_sectors (uniform : batch.Uniform) (multi : isMultiSector batch = true) :
    Sound lib proves flaws (e.finish lib (synthesizeBatch lib batch) (.ok bytes)) hand loose := by
  obtain ⟨proofs, each, rfl⟩ := given
  have several : batch.others ≠ [] := (of_decide_eq_true multi).2
  have synth : (synthesizeBatch lib batch).synth = batch.requests.flatMap lib.circuits :=
    if_pos multi
  rw [synth] at each
  obtain ⟨groups, proved, rfl⟩ := forall₂_flatMap each
  have sized := premises.sized_all each
  have boundaries : (synthesizeBatch lib batch).sectorBoundaries = groups.map length := by
    refine (if_pos multi).trans (forall₂_eq_eq_eq ▸ ?_)
    rw [forall₂_map_left_iff, forall₂_map_right_iff]
    exact proved.imp fun _ _ made => made.length_eq
  have split : splitBatchedProofs groups.flatten.flatten
      (synthesizeBatch lib batch).sectorBoundaries = .ok (groups.map flatten) := by
    rw [boundaries, splitBatchedProofs, ← length_flatten, if_pos (flatten_length sized)]
    exact congrArg Except.ok (splitFrom_groups (fun group member proof inside =>
      sized proof (mem_flatten.mpr ⟨group, member, inside⟩)) [])
  have members : (synthesizeBatch lib batch).batchRequests = batch.requests := if_neg several
  rw [finish_split_eq rfl (by rw [members]; nofun) split, members]
  refine Sound.closeAll ?_ _ (batchStatuses_deserved premises proved ?_ 0)
  · rw [batchStatuses_fst proved]
    exact sound
  · intro req member
    exact (uniform req member).trans (uniform batch.first mem_cons_self).symm

/-- The proof of the first request of another batch is no proof of the batch. -/
theorem Sound.finish_mismatch (unfair : flaws.unfair = true) (uniform : batch.Uniform)
    (several : batch.others ≠ []) (apart : isMultiSector batch = false) :
    Sound lib proves flaws (e.finish lib (synthesizeBatch lib batch) (.ok bytes)) hand loose := by
  obtain ⟨proofs, each, rfl⟩ := given
  have notMulti : ¬isMultiSector batch = true := by simp [apart]
  have synth : (synthesizeBatch lib batch).synth = lib.circuits batch.first := if_neg notMulti
  have boundaries : (synthesizeBatch lib batch).sectorBoundaries = [] := if_neg notMulti
  have members : (synthesizeBatch lib batch).batchRequests = batch.requests := if_neg several
  have length := flatten_length (premises.sized_all each)
  have long : 0 < proofs.length := by
    rw [← each.length_eq, synth]
    exact premises.whole batch.first
  obtain ⟨fault, split⟩ : ∃ fault, splitBatchedProofs proofs.flatten
      (synthesizeBatch lib batch).sectorBoundaries = .error fault := by
    rw [boundaries]
    refine ⟨_, if_neg ?_⟩
    rw [length, sum_nil, grothProofBytes]
    omega
  rw [finish_mismatch_eq rfl (by rw [members]; nofun) split, failAll_synthesizeBatch uniform,
    ← closeAll_false]
  refine Sound.closeAll ?_ _ fun answer member => ?_
  · rw [map_map]
    exact (map_id batch.requests).symm ▸ sound
  · obtain ⟨req, -, rfl⟩ := mem_map.mp member
    exact ⟨nofun, fun fair => absurd (unfair.symm.trans fair) nofun⟩

end

theorem Sound.finish_batch (uniform : batch.Uniform)
    (given : ∀ bytes, outcome = .ok bytes → Gives proves (synthesizeBatch lib batch).synth bytes)
    (fair : outcome.isOk = false ∨ flaws.unfair = true ∨ batch.others = [] ∨
      batch.first.proofKind = .poRepSealCommit) :
    Sound lib proves flaws (e.finish lib (synthesizeBatch lib batch) outcome) hand loose := by
  cases outcome with
  | failed message | panicked message => exact sound.finish_failed uniform
  | ok bytes =>
    by_cases alone : batch.others = []
    · exact sound.finish_single premises (given bytes rfl) alone
    cases multi : isMultiSector batch with
    | true => exact sound.finish_sectors premises (given bytes rfl) uniform multi
    | false =>
      refine sound.finish_mismatch premises (given bytes rfl) ?_ uniform alone multi
      rcases fair with failed | unfair | single | porep
      · exact nomatch failed
      · exact unfair
      · exact absurd single alone
      · rw [uniform batch.first mem_cons_self] at porep
        simp [isMultiSector, porep, alone] at multi

end

theorem Formed.processBatch (formed : Formed lib e) (uniform : batch.Uniform)
    (outcome : Outcome Unit) : Formed lib (e.processBatch lib batch outcome) := by
  unfold Engine.processBatch Engine.processPartitioned
  split
  · cases outcome with
    | ok value =>
      have registered : Formed lib (e.register lib batch.first) := { formed with }
      refine registered.pushAll fun item member submitted => ?_
      obtain ⟨part, -, rfl⟩ := mem_map.mp member
      trivial
    | failed message | panicked message => exact { formed with }
  · cases outcome with
    | ok value => exact formed.push (.inr ⟨batch, uniform, rfl⟩)
    | failed message | panicked message => exact { formed with }

theorem Formed.finish (formed : Formed lib e) (job : SynthesizedJob Circuit)
    (outcome : Outcome Bytes) : Formed lib (e.finish lib job outcome) := by
  unfold Engine.finish
  cases job.partitionIndex with
  | some pIdx | none => cases outcome <;> exact { formed with }

end Steps

section Runs

variable [DecidableEq Circuit] {proves : Circuit → Bytes → Prop} {flaws : Flaws}
  {e e' : Engine Circuit} {action : Action Circuit}

theorem takeUp_eq_some {item : Work Circuit} {next : Engine Circuit} :
    e.takeUp item next = some e' ↔ item ∈ e.work ∧ next = e' :=
  Option.ite_some_none_eq_some

theorem step_formed (formed : Formed lib e) (stepped : e.step lib action = some e') :
    Formed lib e' := by
  cases action with
  | submit request =>
    cases stepped
    have grown : e.submitted ⊆ e.submitted ++ [request] := subset_append_left _ _
    have here : request ∈ e.submitted ++ [request] := mem_append_right _ mem_cons_self
    refine Formed.put ?_ (forall_mem_singleton.mpr here)
    exact ⟨fun item member => (formed.work item member).mono grown, formed.collector,
      formed.order, Subset.trans formed.known grown⟩
  | awaitProof jobId =>
    cases stepped
    exact { formed with }
  | next request now =>
    obtain ⟨-, taken⟩ := Option.ite_none_left_eq_some.mp stepped
    obtain ⟨member, rfl⟩ := takeUp_eq_some.mp taken
    refine Formed.flush (formed.remove (.submitted request)).work ?_ ?_
      (e.collector.route_lets request now)
      (BatchCollector.route_sorted request now formed.collector)
    · refine append_subset.mpr ⟨formed.known, fun other inside => ?_⟩
      rw [mem_singleton.mp inside]
      exact formed.work _ member
    · show e.taken ++ [request] = e.dispatched ++ (e.collector.requests ++ [request])
      rw [formed.order, append_assoc]
  | timeout now =>
    obtain ⟨-, flushed⟩ := Option.ite_none_left_eq_some.mp stepped
    cases flushed
    exact Formed.flush formed.work formed.known formed.order (e.collector.checkTimeout_lets now)
      (BatchCollector.checkTimeout_sorted now formed.collector)
  | shutdown =>
    cases stepped
    have flushed := Formed.flush formed.work formed.known formed.order e.collector.forceFlush_lets
      (BatchCollector.forceFlush_sorted formed.collector)
    exact { flushed with }
  | process batch outcome =>
    obtain ⟨member, rfl⟩ := takeUp_eq_some.mp stepped
    exact (formed.remove _).processBatch (formed.work _ member) outcome
  | hand jobSeq item =>
    obtain ⟨-, rfl⟩ := takeUp_eq_some.mp stepped
    split
    · exact formed.remove _
    · exact (formed.remove _).put (forall_mem_singleton.mpr trivial)
  | synthesize jobSeq item outcome =>
    obtain ⟨-, rfl⟩ := takeUp_eq_some.mp stepped
    cases outcome with
    | ok value => exact (formed.remove _).push (.inl ⟨item, rfl⟩)
    | failed message | panicked message => exact { formed.remove _ with }
  | pick jobSeq job =>
    obtain ⟨member, rfl⟩ := takeUp_eq_some.mp stepped
    have made : Work.MadeBy lib job := formed.work _ member
    split
    · exact formed.remove _
    · exact (formed.remove _).put (forall_mem_singleton.mpr made)
  | start job outcome =>
    obtain ⟨member, rfl⟩ := takeUp_eq_some.mp stepped
    have made : Work.MadeBy lib job := formed.work _ member
    cases outcome with
    | ok value => exact (formed.remove _).put (forall_mem_singleton.mpr made)
    | failed message | panicked message => exact { formed.remove _ with }
  | finish job outcome =>
    obtain ⟨-, rfl⟩ := takeUp_eq_some.mp stepped
    exact (formed.remove _).finish job outcome

variable (proves flaws) in
/-- What a step may do in a run that shows only the given flaws. Each job has an id of its own, no
push replaces what waits, and the GPU prover is right. -/
def Allowed (e : Engine Circuit) : Action Circuit → Prop
  | .submit request => ∀ req ∈ e.submitted, req.jobId ≠ request.jobId
  | .process batch outcome => outcome.isOk → e.Room batch
  | .synthesize jobSeq item outcome =>
    (outcome.isOk → e.Free (some (.gpuWorkQueue, jobSeq, item.partitionIdx))) ∧
      (outcome.isOk ∨ flaws.recounts ∨ e.tracker.completed item.request.jobId = none ∨
        e.tracker.hasFailed item.request.jobId)
  | .start job outcome =>
    outcome.isOk ∨
      if job.partitionIndex.isSome then
        flaws.recounts ∨ e.tracker.completed job.request.jobId = none
      else flaws.unfair ∨ job.batchRequests = []
  | .finish job outcome =>
    (∀ bytes, outcome = .ok bytes → Gives proves job.synth bytes) ∧
      if job.partitionIndex.isSome then
        outcome.isOk ∨ flaws.recounts ∨ e.tracker.completed job.request.jobId = none ∨
          e.tracker.hasFailed job.request.jobId
      else
        outcome.isOk = false ∨ flaws.unfair ∨ job.batchRequests = [] ∨
          job.request.proofKind = .poRepSealCommit
  | .awaitProof _ | .next _ _ | .timeout _ | .shutdown | .hand _ _ | .pick _ _ => True

section

variable (sound : Sound lib proves flaws e 0 0)
include sound

theorem Sound.move {item next : Work Circuit} (member : item ∈ e.work)
    (requests : next.requests = item.requests) (parts : next.parts = item.parts) :
    Sound lib proves flaws ((e.remove item).put [next]) 0 0 := by
  refine Sound.put _ ?_
  rw [flatMap_singleton, flatMap_singleton, requests, parts]
  exact sound.take member

theorem Sound.take_job {job : SynthesizedJob Circuit} {item : Work Circuit} (member : item ∈ e.work)
    (requests : item.requests = Work.requests (.started job))
    (parts : item.parts = Work.parts (.started job)) (made : Work.MadeBy lib job) :
    (∃ part, job = synthesizePartition lib part ∧
      Sound lib proves flaws (e.remove item) 0 (part ::ₘ 0)) ∨
    ∃ batch : ProofBatch, batch.Uniform ∧ job = synthesizeBatch lib batch ∧
      Sound lib proves flaws (e.remove item) (↑batch.requests + 0) 0 := by
  have taken := sound.take member
  rw [requests, parts] at taken
  rcases MadeBy.cases made with ⟨part, rfl, held, parts⟩ | ⟨batch, uniform, rfl, held, parts⟩
  · rw [parts] at taken
    exact .inl ⟨part, rfl, taken⟩
  · rw [held] at taken
    exact .inr ⟨batch, uniform, rfl, taken⟩

end

theorem step_sound (premises : Premises lib proves flaws) (formed : Formed lib e)
    (sound : Sound lib proves flaws e 0 0) (allowed : Allowed proves flaws e action)
    (stepped : e.step lib action = some e') : Sound lib proves flaws e' 0 0 := by
  cases action with
  | submit request =>
    cases stepped
    exact Sound.put _ (sound.submit allowed)
  | awaitProof jobId =>
    cases stepped
    exact sound.awaitProof jobId
  | next request now =>
    obtain ⟨-, taken⟩ := Option.ite_none_left_eq_some.mp stepped
    obtain ⟨member, rfl⟩ := takeUp_eq_some.mp taken
    refine Sound.flush ?_ (e.collector.route_lets request now)
    exact (sound.take member).regroup rfl rfl rfl rfl rfl rfl rfl
  | timeout now =>
    obtain ⟨-, flushed⟩ := Option.ite_none_left_eq_some.mp stepped
    cases flushed
    exact sound.flush_own (e.collector.checkTimeout_lets now)
  | shutdown =>
    cases stepped
    exact (sound.flush_own e.collector.forceFlush_lets).regroup rfl rfl rfl rfl rfl rfl rfl
  | process batch outcome =>
    obtain ⟨member, rfl⟩ := takeUp_eq_some.mp stepped
    refine (sound.take member).processBatch premises outcome fun ok => ?_
    exact (allowed ok).remove _
  | hand jobSeq item =>
    obtain ⟨member, rfl⟩ := takeUp_eq_some.mp stepped
    split
    case isTrue failed => exact (sound.take member).skip failed
    case isFalse => exact sound.move member rfl rfl
  | synthesize jobSeq item outcome =>
    obtain ⟨member, rfl⟩ := takeUp_eq_some.mp stepped
    exact (sound.take member).synthesize (fun ok => (allowed.1 ok).remove _) allowed.2
  | pick jobSeq job =>
    obtain ⟨member, rfl⟩ := takeUp_eq_some.mp stepped
    split
    case isTrue skipped =>
      rcases sound.take_job member rfl rfl (formed.work _ member) with
        ⟨part, rfl, taken⟩ | ⟨batch, -, rfl, -⟩
      · exact taken.skip (Bool.and_eq_true_iff.mp skipped).2
      · exact absurd (Bool.and_eq_true_iff.mp skipped).1 nofun
    case isFalse => exact sound.move member rfl rfl
  | start job outcome =>
    obtain ⟨member, rfl⟩ := takeUp_eq_some.mp stepped
    by_cases ok : outcome = .ok ()
    · rw [ok]
      exact sound.move member rfl rfl
    obtain ⟨bad, message, fails⟩ := start_not_ok (e := e.remove (.picked job)) job ok
    rw [fails]
    rcases sound.take_job member rfl rfl (formed.work _ member) with
      ⟨part, rfl, taken⟩ | ⟨batch, uniform, rfl, taken⟩
    · exact taken.failStart _ _ (allowed.resolve_left bad)
    · exact taken.failStart_batch ((allowed.resolve_left bad).imp_right others_nil)
  | finish job outcome =>
    obtain ⟨member, rfl⟩ := takeUp_eq_some.mp stepped
    rcases sound.take_job member rfl rfl (formed.work _ member) with
      ⟨part, rfl, taken⟩ | ⟨batch, uniform, rfl, taken⟩
    · exact taken.finish_partition premises allowed.1 allowed.2
    · refine taken.finish_batch premises uniform allowed.1 ?_
      exact allowed.2.imp_right (Or.imp_right (Or.imp_left others_nil))

/-- A run that shows only the given flaws leaves every job in one of its phases. -/
theorem run_sound (premises : Premises lib proves flaws) {actions : List (Action Circuit)}
    (initial : Formed lib e ∧ Sound lib proves flaws e 0 0)
    (under : StepMachine.RunsUnder (step lib) (Allowed proves flaws) e actions)
    (ran : run (step lib) e actions = some e') :
    Formed lib e' ∧ Sound lib proves flaws e' 0 0 := by
  have both := run_invariant
    (fun e _ _ (both : Formed lib e ∧ Sound lib proves flaws e 0 0) allowed stepped =>
      And.intro (step_formed both.1 stepped)
        (step_sound premises both.1 both.2 allowed stepped)) initial under ran
  exact both

end Runs

theorem eq_of_submitted {r r' : ProofRequest} (submitted : r ∈ e.submitted)
    (known : (e.view 0 0 r.jobId).submitted = [r']) : r' = r := by
  have listed : r ∈ (e.view 0 0 r.jobId).submitted :=
    mem_filter.mpr ⟨submitted, decide_eq_true rfl⟩
  grind

/-- A library with a given number of partitions for every request, and a verifier that accepts. -/
def plainLibrary (partitions : Nat) : Library Nat :=
  ⟨fun _ => range partitions, fun _ _ _ _ => .ok true⟩

def plainRequest (jobId : JobId) (kind : ProofKind) : ProofRequest :=
  ⟨jobId, kind, 0, [], [], 0, 0, [], 0, [], [], []⟩

def plainProof : Bytes := replicate grothProofBytes 0

end Engine

end Curio.Cuzk
