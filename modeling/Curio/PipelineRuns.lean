import Curio.OrderedPipeline

/-! The runs of a pipeline: no chunk is lost or written twice, they are written in order, and every
run comes to an end. -/

namespace OrderedPipeline

open StepMachine Entries List

variable {ι β ε : Type} {p : Pipeline ι β ε} {state next : State ι β ε} {writer : Writer β ε}
  {id k : Nat} {data : List β}

namespace Pipeline

variable (p)

def Made (id : Nat) (data : List β) : Prop :=
  ∃ job, p.jobs[id]? = some job ∧ p.work id job = some data

def chunk (id : Nat) : List β :=
  match p.jobs[id]?.bind (p.work id) with
  | none => []
  | some data => p.accepted id data

def output (count : Nat) : List β := (range count).flatMap p.chunk

def firstError (count : Nat) : Option ε := (range count).findSome? p.writeError

variable {p}

theorem Made.chunk (made : p.Made id data) : p.chunk id = p.accepted id data := by
  obtain ⟨job, found, worked⟩ := made
  rw [Pipeline.chunk, found, Option.bind_some, worked]

theorem output_all {made : Nat → ι → List β}
    (works : ∀ id job, p.jobs[id]? = some job → p.work id job = some (made id job))
    (noError : ∀ id < p.jobs.length, p.write id = none) :
    p.output p.jobs.length = (p.jobs.mapIdx made).flatten := by
  rw [output, flatMap]
  congr 1
  apply ext_getElem (by simp)
  intro id inRange _
  have below : id < p.jobs.length := by simpa using inRange
  have worked := works id _ (getElem?_eq_getElem below)
  simp [chunk, accepted, below, worked, noError id below]

theorem firstError_eq_none {count : Nat} :
    p.firstError count = none ↔ ∀ id < count, p.write id = none := by
  simp [firstError, writeError]

end Pipeline

/-- The writer has put out the chunks before the one it waits for, and holds what workers made. -/
structure Writer.Sound (p : Pipeline ι β ε) (writer : Writer β ε) : Prop where
  made : ∀ entry ∈ writer.buffer.entries, p.Made entry.1 entry.2
  written : ∀ id < writer.expected, ∃ data, p.Made id data
  out : writer.out = p.output writer.expected
  writeErr : writer.writeErr = p.firstError writer.expected

def Writer.has (writer : Writer β ε) (id : Nat) : Nat :=
  (writer.buffer.entries.map Prod.fst).count id + if id < writer.expected then 1 else 0

theorem Writer.Sound.put (sound : writer.Sound p) (made : p.Made writer.expected data) :
    (p.put writer data).Sound p where
  made := sound.made
  written := by
    intro id before
    rcases Nat.lt_succ_iff_lt_or_eq.mp before with earlier | rfl
    · exact sound.written id earlier
    · exact ⟨data, made⟩
  out := by
    show writer.out ++ p.accepted writer.expected data = p.output (writer.expected + 1)
    rw [sound.out, ← made.chunk]
    simp [Pipeline.output, range_succ]
  writeErr := by
    show writer.writeErr.or (p.writeError writer.expected) = p.firstError (writer.expected + 1)
    rw [sound.writeErr]
    simp [Pipeline.firstError, range_succ]

theorem has_put :
    (p.put writer data).has id = writer.has id + if id = writer.expected then 1 else 0 := by
  show (writer.buffer.entries.map Prod.fst).count id + (if id < writer.expected + 1 then 1 else 0) = _
  unfold Writer.has
  grind

theorem has_put_remove (held : writer.buffer.get writer.expected = some data) (id : Nat) :
    (p.put { writer with buffer := writer.buffer.remove writer.expected } data).has id
      = writer.has id := by
  have counted := ((KeyMap.entries_perm held).map Prod.fst).count_eq id
  rw [has_put]
  unfold Writer.has
  grind

theorem drain_spec (fuel : Nat) (writer : Writer β ε) (sound : writer.Sound p)
    (enough : writer.buffer.entries.length ≤ fuel) :
    (p.drain fuel writer).Sound p ∧ (∀ id, (p.drain fuel writer).has id = writer.has id) ∧
      (p.drain fuel writer).buffer.get (p.drain fuel writer).expected = none := by
  induction fuel generalizing writer with
  | zero =>
    have empty : writer.buffer.entries = [] := eq_nil_of_length_eq_zero (by omega)
    refine ⟨sound, fun _ => rfl, ?_⟩
    show writer.buffer.get writer.expected = none
    rw [KeyMap.get_eq_none, empty]
    exact not_mem_nil
  | succ fuel ih =>
    unfold Pipeline.drain
    cases held : writer.buffer.get writer.expected with
    | none => exact ⟨sound, fun _ => rfl, held⟩
    | some data =>
      have made := sound.made _ (KeyMap.get_eq_some.mp held)
      have fewer := (KeyMap.entries_perm held).length_eq
      rw [length_cons] at fewer
      have others : ({ writer with
          buffer := writer.buffer.remove writer.expected } : Writer β ε).Sound p :=
        { sound with made := fun entry member => sound.made entry (KeyMap.mem_remove.mp member).1 }
      obtain ⟨drained, same, due⟩ := ih _ (others.put made) (by
        show (writer.buffer.remove writer.expected).entries.length ≤ fuel
        omega)
      exact ⟨drained, fun id => (same id).trans (has_put_remove held id), due⟩

theorem receive_spec (sound : writer.Sound p) (due : writer.buffer.get writer.expected = none)
    (made : p.Made id data) (new : writer.has id = 0) :
    (p.receive writer id data).Sound p ∧
      (∀ other, (p.receive writer id data).has other
        = writer.has other + if other = id then 1 else 0) ∧
      (p.receive writer id data).buffer.get (p.receive writer id data).expected = none := by
  unfold Pipeline.receive
  split
  · rename_i same
    subst same
    obtain ⟨drained, keeps, still⟩ := drain_spec _ (p.put writer data) (sound.put made) le_rfl
    exact ⟨drained, fun other => (keeps other).trans has_put, still⟩
  · rename_i early
    have absent : writer.buffer.get id = none := by
      rw [KeyMap.get_eq_none, ← count_eq_zero]
      exact (Nat.add_eq_zero_iff.mp new).1
    refine ⟨{ sound with made := ?_ }, fun other => ?_, ?_⟩
    · intro entry member
      rcases KeyMap.mem_put.mp member with rfl | old
      · exact made
      · exact sound.made entry old.1
    · have grown : (writer.buffer.put id data).entries.Perm (writer.buffer.entries ++ [(id, data)]) :=
        put_perm (Perm.refl _) absent
      unfold Writer.has
      grind
    · exact KeyMap.get_put_other (Ne.symm early) due

def State.inFlight (state : State ι β ε) (id : Nat) : Nat :=
  (state.jobChan.map Prod.fst).count id + (state.workers.filterMap Worker.id?).count id +
    (state.resultChan.map Prod.fst).count id

/-- Every chunk that was sent is at one place, and what is there is what was made of its job. -/
structure Flow (p : Pipeline ι β ε) (state : State ι β ε) : Prop where
  sent : state.sent ≤ p.jobs.length
  counted : ∀ id, state.inFlight id + state.writer.has id = if id < state.sent then 1 else 0
  queued : ∀ entry ∈ state.jobChan, p.jobs[entry.1]? = some entry.2
  working : ∀ id job, Worker.busy id job ∈ state.workers → p.jobs[id]? = some job
  delivered : ∀ entry ∈ state.resultChan, p.Made entry.1 entry.2
  writer : state.writer.Sound p
  due : state.writer.buffer.get state.writer.expected = none

theorem Flow.init : Flow p p.init where
  sent := Nat.zero_le _
  counted := by
    intro id
    have idle : (replicate p.workers (Worker.idle : Worker ι)).filterMap Worker.id? = [] := by
      rw [filterMap_eq_nil_iff]
      intro worker member
      rw [eq_of_mem_replicate member]
      rfl
    simp [State.inFlight, Writer.has, Pipeline.init, idle, KeyMap.empty]
  queued := by simp [Pipeline.init]
  working := by
    intro id job member
    cases eq_of_mem_replicate member
  delivered := by simp [Pipeline.init]
  writer := ⟨by simp [Pipeline.init, KeyMap.empty], by simp [Pipeline.init], rfl, rfl⟩
  due := rfl

theorem count_ids_set {workers : List (Worker ι)} {old : Worker ι} (new : Worker ι)
    (there : workers[k]? = some old) (id : Nat) :
    old.id?.toList.count id + ((workers.set k new).filterMap Worker.id?).count id
      = new.id?.toList.count id + (workers.filterMap Worker.id?).count id := by
  have counted := ((set_perm new there).filterMap Worker.id?).count_eq id
  simp only [filterMap_cons] at counted
  cases old <;> cases new <;> simpa [Worker.id?, count_cons, Nat.add_comm] using counted

theorem Flow.step (flow : Flow p state) (stepped : p.Stepped state next) : Flow p next := by
  cases stepped with
  | send reading found =>
    have below := (List.getElem?_eq_some_iff.mp found).1
    refine { flow with
      sent := below
      counted := fun id => ?_
      queued := fun entry member => ?_ }
    · have before := flow.counted id
      simp only [State.inFlight] at before ⊢
      grind
    · rcases mem_append.mp member with old | new
      · exact flow.queued entry old
      · obtain rfl := mem_singleton.mp new
        exact found
  | endReading | crash => exact { flow with }
  | @take worker id job rest idle head =>
    have queued := flow.queued
    rw [head] at queued
    refine { flow with
      counted := fun other => ?_
      queued := (forall_mem_cons.mp queued).2
      working := fun other work member => ?_ }
    · have before := flow.counted other
      have moved := count_ids_set (.busy id job) idle other
      simp only [State.inFlight, head, map_cons, count_cons] at before ⊢
      simp only [Worker.id?, Option.toList, count_nil, count_singleton] at moved
      omega
    · rcases mem_or_eq_of_mem_set member with old | new
      · exact flow.working other work old
      · cases new
        exact queued _ mem_cons_self
  | panic => exact { flow with }
  | @deliver worker id job data busy made =>
    have found := flow.working id job (mem_of_getElem? busy)
    refine { flow with
      counted := fun other => ?_
      working := fun other work member => ?_
      delivered := fun entry member => ?_ }
    · have before := flow.counted other
      have moved := count_ids_set .idle busy other
      simp only [State.inFlight, map_append, count_append, map_cons, map_nil,
        count_singleton] at before ⊢
      simp only [Worker.id?, Option.toList, count_nil, count_singleton] at moved
      omega
    · rcases mem_or_eq_of_mem_set member with old | new
      · exact flow.working other work old
      · cases new
    · rcases mem_append.mp member with old | new
      · exact flow.delivered entry old
      · obtain rfl := mem_singleton.mp new
        exact ⟨job, found, made⟩
  | @exit worker idle =>
    refine { flow with
      counted := fun other => ?_
      working := fun other work member => ?_ }
    · have before := flow.counted other
      have moved := count_ids_set .done idle other
      simp only [State.inFlight] at before ⊢
      simp only [Worker.id?] at moved
      omega
    · rcases mem_or_eq_of_mem_set member with old | new
      · exact flow.working other work old
      · cases new
  | closeResults => exact { flow with }
  | @receive id data rest head =>
    have delivered := flow.delivered
    have counted := flow.counted
    simp only [State.inFlight, head] at delivered counted
    have new : state.writer.has id = 0 := by
      grind
    obtain ⟨sound, keeps, due⟩ :=
      receive_spec flow.writer flow.due (delivered _ mem_cons_self) new
    refine { flow with
      counted := fun other => ?_
      delivered := (forall_mem_cons.mp delivered).2
      writer := sound
      due := due }
    simp only [State.inFlight]
    grind
  | closeErr | finish => exact { flow with }

theorem Flow.expected_le (flow : Flow p state) : state.writer.expected ≤ state.sent := by
  by_contra ahead
  have counted := flow.counted state.sent
  rw [Writer.has, if_pos (by omega), if_neg (by omega)] at counted
  omega

def Worker.isLive : Worker ι → Bool
  | .done => false
  | _ => true

def Outcome.isRunning : Outcome ε → Bool
  | .running => true
  | _ => false

/-- The steps that are left: a job that is not sent yet has four before it is written. -/
def Pipeline.left (p : Pipeline ι β ε) (state : State ι β ε) : Nat :=
  4 * (p.jobs.length - state.sent) + 3 * state.jobChan.length + 2 * state.workers.countP Worker.isBusy
    + state.resultChan.length + (if state.readerDone then 0 else 1)
    + state.workers.countP Worker.isLive + (if state.resultsClosed then 0 else 1)
    + (if state.errClosed then 0 else 1) + (if state.outcome.isRunning then 1 else 0)

open Pipeline (init left step step_stepped)

theorem countP_set {α : Type} {items : List α} {old : α} (condition : α → Bool) (new : α)
    (there : items[k]? = some old) :
    (items.set k new).countP condition + (if condition old then 1 else 0)
      = items.countP condition + (if condition new then 1 else 0) := by
  grind

theorem left_lt (running : state.outcome = .running) (stepped : p.Stepped state next) :
    p.left next < p.left state := by
  cases stepped with
  | send reading found => grind [left]
  | endReading reading => simp [left, reading]
  | crash | panic => simp [left, running, Outcome.isRunning]
  | @take worker id job rest idle head =>
    have busy := countP_set Worker.isBusy (.busy id job) idle
    have live := countP_set Worker.isLive (.busy id job) idle
    simp only [Worker.isLive] at busy live
    simp only [left]
    grind
  | deliver atWork made | exit idle => grind [Worker.isBusy, Worker.isLive, left]
  | closeResults unclosed => simp [left, unclosed]
  | receive head =>
    simp only [left, head, length_cons]
    omega
  | closeErr closed empty unclosed => simp [left, unclosed]
  | finish => simp [left, running, Outcome.isRunning]

/-- Channels that can hold something, if there are workers to use them. -/
def Pipeline.Roomy (p : Pipeline ι β ε) : Prop := 0 < p.workers → 0 < p.jobCap ∧ 0 < p.resultCap

theorem exists_step (roomy : p.Roomy) (closing : Closing p state) (flow : Flow p state)
    (running : state.outcome = .running) : ∃ action next, p.step state action = some next := by
  have stepped : (∃ action, (p.step state action).isSome) →
      ∃ action next, p.step state action = some next := by
    rintro ⟨action, isSome⟩
    exact ⟨action, Option.isSome_iff_exists.mp isSome⟩
  apply stepped
  cases results : state.resultChan with
  | cons head rest => exact ⟨.receive, by simp [step, running, results]⟩
  | nil =>
    cases closed : state.resultsClosed with
    | true =>
      cases errClosed : state.errClosed with
      | true => exact ⟨.finish, by simp [step, running, errClosed]⟩
      | false =>
        exact ⟨.closeErr, by simp [step, running, closed, errClosed, results]⟩
    | false =>
      by_cases all : state.workers.all Worker.isDone = true
      · exact ⟨.closeResults, by simp only [step, running, closed, all, and_self,
          if_true, Option.isSome_some]⟩
      · exact stuckFree all results
where
  stuckFree (all : ¬ state.workers.all Worker.isDone = true) (results : state.resultChan = []) :
      ∃ action, (p.step state action).isSome := by
    simp only [all_eq_true, not_forall] at all
    obtain ⟨worker, member, live⟩ := all
    obtain ⟨k, found⟩ := mem_iff_getElem?.mp member
    have staffed : 0 < p.workers := closing.workers ▸ length_pos_of_mem member
    obtain ⟨jobRoom, resultRoom⟩ := roomy staffed
    cases worker with
    | done => exact absurd rfl live
    | busy id job =>
      refine ⟨.deliver k, ?_⟩
      cases made : p.work id job with
      | none => simp [step, running, found, made]
      | some data => simp [step, running, found, made, results, resultRoom]
    | idle =>
      cases queued : state.jobChan with
      | cons head rest => exact ⟨.take k, by simp [step, running, found, queued]⟩
      | nil =>
        cases ended : state.readerDone with
        | true => exact ⟨.exit k, by simp [step, running, found, queued, ended]⟩
        | false =>
          rcases Nat.lt_or_eq_of_le flow.sent with below | all
          · exact ⟨.send, by
              simp [step, running, ended, queued, jobRoom, below]⟩
          · refine ⟨.endReading, ?_⟩
            simp only [step, running, ended, all, and_self, if_true]
            split <;> rfl

variable {actions : List Action}

section

variable (ran : run p.step p.init actions = some state)
include ran

theorem run_kept : Closing p state ∧ Flow p state := by
  have kept : ∀ state action next, Closing p state ∧ Flow p state →
      p.step state action = some next → Closing p next ∧ Flow p next := by
    rintro state action next ⟨closing, flow⟩ stepped
    obtain ⟨running, does⟩ := step_stepped stepped
    exact ⟨closing.step running does, flow.step does⟩
  exact run_keeps kept ⟨.init, .init⟩ ran

theorem run_length : actions.length ≤ p.left p.init := by
  have lowers : ∀ state action next, True → True → p.step state action = some next →
      p.left next + (if (fun _ => true) action then 1 else 0) ≤ p.left state := by
    intro state action next _ _ stepped
    obtain ⟨running, does⟩ := step_stepped stepped
    exact left_lt running does
  have bound := run_measure (fun _ _ _ _ _ _ => trivial) lowers trivial
    (.of_forall (fun _ _ _ => trivial) _) ran
  rw [countP_true] at bound
  omega

end

theorem run_progress (roomy : p.Roomy) (ran : run p.step p.init actions = some state)
    (running : state.outcome = .running) : ∃ action next, p.step state action = some next :=
  exists_step roomy (run_kept ran).1 (run_kept ran).2 running

theorem exists_ended (roomy : p.Roomy) :
    ∃ actions state, run p.step p.init actions = some state ∧ state.outcome ≠ .running := by
  have progress : ∀ state, Closing p state ∧ Flow p state → ¬ state.outcome ≠ .running →
      ∃ action next, True ∧ p.step state action = some next ∧
        (Closing p next ∧ Flow p next) ∧ p.left next < p.left state := by
    rintro state ⟨closing, flow⟩ unfinished
    obtain ⟨action, next, stepped⟩ := exists_step roomy closing flow (not_not.mp unfinished)
    obtain ⟨running, does⟩ := step_stepped stepped
    exact ⟨action, next, trivial, stepped, ⟨closing.step running does, flow.step does⟩,
      left_lt running does⟩
  obtain ⟨actions, state, _, ran, _, ended⟩ := exists_run progress p.init ⟨.init, .init⟩
  exact ⟨actions, state, ran, ended⟩

section

variable (staffed : 0 < p.workers) (ran : run p.step p.init actions = some state)
include staffed ran

/-- With workers the reader always ends before the error channel is closed, so that only a worker
can panic. -/
theorem run_crashed (crashed : state.outcome = .crashed) :
    ∃ id job, p.jobs[id]? = some job ∧ p.work id job = none := by
  obtain ⟨closing, flow⟩ := run_kept ran
  rcases closing.crashed crashed with ⟨reading, errClosed, -⟩ | ⟨id, job, busy, nothing⟩
  · have ended := (closing.readerDone staffed (closing.drained errClosed).1).1
    rw [reading] at ended
    cases ended
  · exact ⟨id, job, flow.working id job busy, nothing⟩

/-- With workers a run that has returned has written every chunk, in order and once, and returns
the reader's error or else the first write error. -/
theorem run_returned {err : Option ε} (returned : state.outcome = .returned err) :
    (∀ id < p.jobs.length, ∃ data, p.Made id data) ∧
      state.writer.out = p.output p.jobs.length ∧
        err = p.ending.or (p.firstError p.jobs.length) := by
  obtain ⟨closing, flow⟩ := run_kept ran
  obtain ⟨errClosed, rfl⟩ := closing.returned err returned
  obtain ⟨closed, empty⟩ := closing.drained errClosed
  obtain ⟨ended, unqueued⟩ := closing.readerDone staffed closed
  have idle : state.workers.filterMap Worker.id? = [] := by
    rw [filterMap_eq_nil_iff]
    intro worker member
    have isDone := closing.closed closed worker member
    cases worker with
    | done => rfl
    | idle | busy id job => cases isDone
  -- a chunk that the writer still waits for would be nowhere
  have all : state.writer.expected = p.jobs.length := by
    have sent := closing.ended ended
    have notAhead := flow.expected_le
    by_contra short
    have counted := flow.counted state.writer.expected
    have absent := count_eq_zero.mpr (KeyMap.get_eq_none.mp flow.due)
    rw [State.inFlight, unqueued, idle, empty, Writer.has, absent, if_neg (by omega),
      if_pos (by omega)] at counted
    simp at counted
  refine ⟨all ▸ flow.writer.written, ?_⟩
  rw [flow.writer.out, flow.writer.writeErr, closing.readErr, if_pos ended, all]
  exact ⟨rfl, rfl⟩

end

/-- In whatever order the steps are taken, the pipeline comes to its end without a crash and has
put out the data then, unless it returns an error because a write failed. -/
structure Pipeline.Delivers (p : Pipeline ι β ε) (data : List β) : Prop where
  bounded : ∃ bound, ∀ actions state, run p.step p.init actions = some state →
    actions.length ≤ bound
  goesOn : ∀ actions state, run p.step p.init actions = some state → state.outcome = .running →
    ∃ action next, p.step state action = some next
  safe : ∀ actions state, run p.step p.init actions = some state → state.outcome ≠ .crashed
  written : ∀ actions state err, run p.step p.init actions = some state →
    state.outcome = .returned err → (∀ id, p.write id = none) → state.writer.out = data
  success : ∀ actions state, run p.step p.init actions = some state →
    state.outcome = .returned none → state.writer.out = data

section

variable {made : Nat → ι → List β} (roomy : p.Roomy) (staffed : 0 < p.workers)
  (works : ∀ id job, p.jobs[id]? = some job → p.work id job = some (made id job))
include roomy staffed works

/-- A pipeline with workers that do not panic delivers their work in order. -/
theorem delivers : p.Delivers (p.jobs.mapIdx made).flatten where
  bounded := ⟨p.left p.init, fun _ _ ran => run_length ran⟩
  goesOn := fun _ _ ran running => run_progress roomy ran running
  safe := by
    intro actions state ran crashed
    obtain ⟨id, job, found, nothing⟩ := run_crashed staffed ran crashed
    rw [works id job found] at nothing
    cases nothing
  written := by
    intro actions state err ran returned noError
    obtain ⟨-, out, -⟩ := run_returned staffed ran returned
    rw [out, Pipeline.output_all works fun id _ => noError id]
  success := by
    intro actions state ran returned
    obtain ⟨-, out, err⟩ := run_returned staffed ran returned
    obtain ⟨-, noError⟩ := Option.or_eq_none_iff.mp err.symm
    rw [out, Pipeline.output_all works (Pipeline.firstError_eq_none.mp noError)]

/-- Beyond that, no error is returned where no write fails. -/
structure Pipeline.Succeeds (p : Pipeline ι β ε) (data : List β) : Prop extends
    p.Delivers data where
  quiet : ∀ actions state err, run p.step p.init actions = some state →
    state.outcome = .returned err → (∀ id, p.write id = none) → err = none

theorem succeeds (whole : p.ending = none) : p.Succeeds (p.jobs.mapIdx made).flatten where
  toDelivers := delivers roomy staffed works
  quiet := by
    intro actions state err ran returned noError
    obtain ⟨-, -, result⟩ := run_returned staffed ran returned
    rw [result, whole, Pipeline.firstError_eq_none.mpr fun id _ => noError id]
    rfl

end

theorem Pipeline.Delivers.made (roomy : p.Roomy) (staffed : 0 < p.workers)
    (noError : ∀ id, p.write id = none) (delivers : p.Delivers data) :
    (∀ id < p.jobs.length, ∃ data, p.Made id data) ∧ data = p.output p.jobs.length := by
  obtain ⟨actions, state, ran, ended⟩ := exists_ended roomy
  cases outcome : state.outcome with
  | running => exact absurd outcome ended
  | crashed => exact absurd outcome (delivers.safe actions state ran)
  | returned err =>
    obtain ⟨made, out, -⟩ := run_returned staffed ran outcome
    exact ⟨made, (delivers.written actions state err ran outcome noError).symm.trans out⟩

structure Idle (state : State ι β ε) : Prop where
  workers : state.workers = []
  resultChan : state.resultChan = []
  out : state.writer.out = []

theorem Idle.step (idle : Idle state) (stepped : p.Stepped state next) : Idle next := by
  have nobody : ∀ k : Nat, state.workers[k]? = none := by simp [idle.workers]
  cases stepped with
  | send | endReading | crash | closeResults | closeErr | finish => exact { idle with }
  | take found | panic found | deliver found | exit found =>
    rw [nobody] at found
    cases found
  | receive head =>
    rw [idle.resultChan] at head
    cases head

/-- Without workers nothing is put out, which is right only where there is nothing to do. -/
theorem delivers_nothing (roomy : p.Roomy) (unstaffed : p.workers = 0) (noError : p.ending = none) :
    p.Delivers [] := by
  have idle : ∀ actions state, run p.step p.init actions = some state → Idle state := by
    intro actions state ran
    have initial : Idle p.init := ⟨by simp [init, unstaffed], rfl, rfl⟩
    exact run_keeps (fun _ _ _ before stepped => before.step (step_stepped stepped).2) initial ran
  exact
    { bounded := ⟨p.left p.init, fun _ _ ran => run_length ran⟩
      goesOn := fun _ _ ran running => run_progress roomy ran running
      safe := by
        intro actions state ran crashed
        rcases (run_kept ran).1.crashed crashed with ⟨-, -, failed⟩ | ⟨id, job, busy, -⟩
        · simp [noError] at failed
        · simp [(idle actions state ran).workers] at busy
      written := fun actions state _ ran _ _ => (idle actions state ran).out
      success := fun actions state ran _ => (idle actions state ran).out }

theorem run_idle (unstaffed : p.workers = 0) :
    ∃ state, run p.step p.init [.closeResults, .closeErr, .finish] = some state ∧
      state.outcome = .returned none ∧ state.writer.out = [] := by
  simp [run, step, init, unstaffed]

theorem run_closed (unstaffed : p.workers = 0) (nothing : p.jobs = [])
    (failed : p.ending.isSome = true) :
    ∃ state, run p.step p.init [.closeResults, .closeErr, .endReading] = some state ∧
      state.outcome = .crashed := by
  simp [run, step, init, unstaffed, nothing, failed]

theorem Pipeline.Delivers.unstaffed (unstaffed : p.workers = 0) (delivers : p.Delivers data) :
    data = [] ∧ (p.jobs = [] → p.ending = none) := by
  constructor
  · obtain ⟨state, ran, returned, out⟩ := run_idle unstaffed
    exact (delivers.success _ state ran returned).symm.trans out
  · intro nothing
    by_contra failed
    obtain ⟨state, ran, crashed⟩ :=
      run_closed unstaffed nothing (Option.isSome_iff_ne_none.mpr failed)
    exact delivers.safe _ state ran crashed

end OrderedPipeline
