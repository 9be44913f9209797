import Curio.Entries
import Curio.StepMachine

/-! A pipeline of goroutines: a reader numbers its jobs and sends them over a channel, workers turn
each job into data, and a writer puts the data out in the order of the numbers, with a buffer for
what comes too early.

Which goroutine moves next is left to the run. What a job is and what a worker makes of it are
parameters, and so is what the output answers to each write. -/

namespace OrderedPipeline

open StepMachine Entries List

variable {ι β ε : Type}

/-- The jobs that the reader sends and the error that it may end with, the work on a job (nothing
where the worker panics), the number of workers and the capacities of the two channels, and for
each write the error that cuts it short, if any. -/
structure Pipeline (ι β ε : Type) where
  jobs : List ι
  ending : Option ε
  work : Nat → ι → Option (List β)
  workers : Nat
  jobCap : Nat
  resultCap : Nat
  write : Nat → Option (Nat × ε)

inductive Worker (ι : Type) where
  | idle
  | busy (id : Nat) (job : ι)
  | done

inductive Outcome (ε : Type) where
  | running
  | returned (err : Option ε)
  | crashed
  deriving DecidableEq

/-- What the writer has written, what it waits for and what came too early. -/
structure Writer (β ε : Type) where
  expected : Nat
  buffer : KeyMap Nat (List β)
  out : List β
  writeErr : Option ε

structure State (ι β ε : Type) where
  sent : Nat
  readerDone : Bool
  jobChan : List (Nat × ι)
  workers : List (Worker ι)
  resultChan : List (Nat × List β)
  resultsClosed : Bool
  writer : Writer β ε
  readErr : Option ε
  errClosed : Bool
  outcome : Outcome ε

inductive Action where
  | send
  | endReading
  | take (worker : Nat)
  | deliver (worker : Nat)
  | exit (worker : Nat)
  | closeResults
  | receive
  | closeErr
  | finish

namespace Worker

def isBusy : Worker ι → Bool
  | busy .. => true
  | _ => false

def isDone : Worker ι → Bool
  | done => true
  | _ => false

def id? : Worker ι → Option Nat
  | busy id _ => some id
  | _ => none

end Worker

namespace Pipeline

variable (p : Pipeline ι β ε)

def accepted (id : Nat) (data : List β) : List β :=
  match p.write id with
  | none => data
  | some (count, _) => data.take count

def writeError (id : Nat) : Option ε := (p.write id).map Prod.snd

def init : State ι β ε :=
  { sent := 0
    readerDone := false
    jobChan := []
    workers := replicate p.workers .idle
    resultChan := []
    resultsClosed := false
    writer := ⟨0, .empty, [], none⟩
    readErr := none
    errClosed := false
    outcome := .running }

def put (writer : Writer β ε) (data : List β) : Writer β ε :=
  { writer with
    expected := writer.expected + 1
    out := writer.out ++ p.accepted writer.expected data
    writeErr := writer.writeErr.or (p.writeError writer.expected) }

def drain : Nat → Writer β ε → Writer β ε
  | 0, writer => writer
  | fuel + 1, writer =>
    match writer.buffer.get writer.expected with
    | none => writer
    | some data =>
      drain fuel (p.put { writer with buffer := writer.buffer.remove writer.expected } data)

def receive (writer : Writer β ε) (id : Nat) (data : List β) : Writer β ε :=
  if id = writer.expected then p.drain writer.buffer.entries.length (p.put writer data)
  else { writer with buffer := writer.buffer.put id data }

def step (state : State ι β ε) (action : Action) : Option (State ι β ε) :=
  match state.outcome with
  | .returned _ | .crashed => none
  | .running =>
    match action with
    | .send =>
      match p.jobs[state.sent]? with
      | none => none
      | some job =>
        if state.readerDone = false ∧ state.jobChan.length < p.jobCap then
          some { state with
            sent := state.sent + 1
            jobChan := state.jobChan ++ [(state.sent, job)] }
        else none
    | .endReading =>
      if state.readerDone = false ∧ state.sent = p.jobs.length then
        -- a send on the closed error channel panics
        if state.errClosed = true ∧ p.ending.isSome = true then
          some { state with outcome := .crashed }
        else some { state with readerDone := true, readErr := p.ending }
      else none
    | .take worker =>
      match state.workers[worker]?, state.jobChan with
      | some .idle, (id, job) :: rest =>
        some { state with
          jobChan := rest
          workers := state.workers.set worker (.busy id job) }
      | _, _ => none
    | .deliver worker =>
      match state.workers[worker]? with
      | some (.busy id job) =>
        match p.work id job with
        | none => some { state with outcome := .crashed }
        | some data =>
          if state.resultChan.length < p.resultCap then
            some { state with
              resultChan := state.resultChan ++ [(id, data)]
              workers := state.workers.set worker .idle }
          else none
      | _ => none
    | .exit worker =>
      match state.workers[worker]? with
      | some .idle =>
        if state.readerDone = true ∧ state.jobChan = [] then
          some { state with workers := state.workers.set worker .done }
        else none
      | _ => none
    | .closeResults =>
      if state.resultsClosed = false ∧ state.workers.all Worker.isDone = true then
        some { state with resultsClosed := true }
      else none
    | .receive =>
      match state.resultChan with
      | [] => none
      | (id, data) :: rest =>
        some { state with
          resultChan := rest
          writer := p.receive state.writer id data }
    | .closeErr =>
      if state.resultsClosed = true ∧ state.resultChan = [] ∧ state.errClosed = false then
        some { state with errClosed := true }
      else none
    | .finish =>
      if state.errClosed = true then
        some { state with outcome := .returned (state.readErr.or state.writer.writeErr) }
      else none

inductive Stepped (state : State ι β ε) : State ι β ε → Prop
  | send {job : ι} (reading : state.readerDone = false) (next : p.jobs[state.sent]? = some job) :
      Stepped state { state with
        sent := state.sent + 1
        jobChan := state.jobChan ++ [(state.sent, job)] }
  | endReading (reading : state.readerDone = false) (all : state.sent = p.jobs.length) :
      Stepped state { state with readerDone := true, readErr := p.ending }
  | crash (reading : state.readerDone = false) (closed : state.errClosed = true)
      (failed : p.ending.isSome = true) :
      Stepped state { state with outcome := .crashed }
  | take {worker id : Nat} {job : ι} {rest : List (Nat × ι)}
      (idle : state.workers[worker]? = some .idle) (head : state.jobChan = (id, job) :: rest) :
      Stepped state { state with
        jobChan := rest
        workers := state.workers.set worker (.busy id job) }
  | panic {worker id : Nat} {job : ι} (busy : state.workers[worker]? = some (.busy id job))
      (nothing : p.work id job = none) : Stepped state { state with outcome := .crashed }
  | deliver {worker id : Nat} {job : ι} {data : List β}
      (busy : state.workers[worker]? = some (.busy id job)) (made : p.work id job = some data) :
      Stepped state { state with
        resultChan := state.resultChan ++ [(id, data)]
        workers := state.workers.set worker .idle }
  | exit {worker : Nat} (idle : state.workers[worker]? = some .idle)
      (ended : state.readerDone = true) (empty : state.jobChan = []) :
      Stepped state { state with workers := state.workers.set worker .done }
  | closeResults (unclosed : state.resultsClosed = false)
      (all : state.workers.all Worker.isDone = true) :
      Stepped state { state with resultsClosed := true }
  | receive {id : Nat} {data : List β} {rest : List (Nat × List β)}
      (head : state.resultChan = (id, data) :: rest) :
      Stepped state { state with
        resultChan := rest
        writer := p.receive state.writer id data }
  | closeErr (closed : state.resultsClosed = true) (empty : state.resultChan = [])
      (unclosed : state.errClosed = false) :
      Stepped state { state with errClosed := true }
  | finish (closed : state.errClosed = true) :
      Stepped state { state with outcome := .returned (state.readErr.or state.writer.writeErr) }

variable {p} {state next : State ι β ε} {action : Action}

theorem step_stepped (stepped : p.step state action = some next) :
    state.outcome = .running ∧ p.Stepped state next := by
  unfold step at stepped
  split at stepped
  · cases stepped
  · cases stepped
  · rename_i running
    refine ⟨running, ?_⟩
    cases action with simp only at stepped
    | send =>
      split at stepped
      · cases stepped
      · rename_i job found
        split at stepped <;> cases stepped
        rename_i guard
        exact .send guard.1 found
    | endReading =>
      split at stepped
      · rename_i guard
        split at stepped <;> cases stepped
        · rename_i closed
          exact .crash guard.1 closed.1 closed.2
        · exact .endReading guard.1 guard.2
      · cases stepped
    | take worker =>
      split at stepped <;> cases stepped
      exact .take ‹_› ‹_›
    | deliver worker =>
      split at stepped
      · rename_i busy
        split at stepped
        · rename_i nothing
          cases stepped
          exact .panic busy nothing
        · rename_i made
          split at stepped <;> cases stepped
          exact .deliver busy made
      · cases stepped
    | exit worker =>
      split at stepped
      · rename_i idle
        split at stepped <;> cases stepped
        rename_i guard
        exact .exit idle guard.1 guard.2
      · cases stepped
    | closeResults =>
      split at stepped <;> cases stepped
      rename_i guard
      exact .closeResults guard.1 guard.2
    | receive =>
      split at stepped <;> cases stepped
      exact .receive ‹_›
    | closeErr =>
      split at stepped <;> cases stepped
      rename_i guard
      exact .closeErr guard.1 guard.2.1 guard.2.2
    | finish =>
      split at stepped <;> cases stepped
      exact .finish ‹_›

end Pipeline

section Lists

variable {α : Type}

theorem set_perm {items : List α} {k : Nat} {old : α} (new : α) (there : items[k]? = some old) :
    (old :: items.set k new).Perm (new :: items) := by
  induction items generalizing k with
  | nil => simp at there
  | cons head rest ih =>
    cases k with
    | zero =>
      obtain rfl : head = old := by simpa using there
      exact Perm.swap _ _ _
    | succ k =>
      have swapped := ih (by simpa using there)
      exact ((Perm.swap _ _ _).trans (swapped.cons head)).trans (Perm.swap _ _ _)

end Lists

variable {p : Pipeline ι β ε} {state next : State ι β ε}

/-- The order in which the channels are closed, and what has ended then. -/
structure Closing (p : Pipeline ι β ε) (state : State ι β ε) : Prop where
  workers : state.workers.length = p.workers
  ended : state.readerDone = true → state.sent = p.jobs.length
  exited : ∀ worker ∈ state.workers, worker.isDone = true →
    state.readerDone = true ∧ state.jobChan = []
  closed : state.resultsClosed = true → ∀ worker ∈ state.workers, worker.isDone = true
  drained : state.errClosed = true → state.resultsClosed = true ∧ state.resultChan = []
  readErr : state.readErr = if state.readerDone = true then p.ending else none
  returned : ∀ err, state.outcome = .returned err →
    state.errClosed = true ∧ err = (state.readErr.or state.writer.writeErr)
  crashed : state.outcome = .crashed →
    (state.readerDone = false ∧ state.errClosed = true ∧ p.ending.isSome = true) ∨
      ∃ id job, Worker.busy id job ∈ state.workers ∧ p.work id job = none

theorem Closing.init : Closing p p.init where
  workers := length_replicate
  ended := by simp [Pipeline.init]
  exited := by
    intro worker member isDone
    rw [eq_of_mem_replicate member] at isDone
    cases isDone
  closed := by simp [Pipeline.init]
  drained := by simp [Pipeline.init]
  readErr := rfl
  returned := by simp [Pipeline.init]
  crashed := by simp [Pipeline.init]

theorem Closing.readerDone (closing : Closing p state) (staffed : 0 < p.workers)
    (closed : state.resultsClosed = true) : state.readerDone = true ∧ state.jobChan = [] := by
  have positive : 0 < state.workers.length := closing.workers.symm ▸ staffed
  have member := getElem_mem positive
  exact closing.exited _ member (closing.closed closed _ member)

theorem Closing.step (closing : Closing p state) (running : state.outcome = .running)
    (stepped : p.Stepped state next) : Closing p next := by
  have returned {claim : Option ε → Prop} (err : Option ε)
      (same : state.outcome = .returned err) : claim err := by simp [running] at same
  have crashed {claim : Prop} (same : state.outcome = .crashed) : claim := by
    simp [running] at same
  -- as long as a worker is not done, the results are open
  have opened {claim : Prop} {k : Nat} {worker : Worker ι} (there : state.workers[k]? = some worker)
      (works : worker.isDone = false) (closed : state.resultsClosed = true) : claim := by
    simp [closing.closed closed worker (mem_of_getElem? there)] at works
  cases stepped with
  | send reading found =>
    refine { closing with
      ended := fun done => ?_, exited := fun worker member isDone => ?_, returned, crashed }
    · rw [reading] at done
      cases done
    · have ended := (closing.exited worker member isDone).1
      rw [reading] at ended
      cases ended
  | endReading reading all =>
    refine { closing with
      ended := fun _ => all, exited := fun worker member isDone => ?_, readErr := rfl, returned
      crashed }
    exact ⟨rfl, (closing.exited worker member isDone).2⟩
  | crash reading closed failed =>
    exact { closing with
      returned := fun err same => by cases same
      crashed := fun _ => .inl ⟨reading, closed, failed⟩ }
  | panic busy nothing =>
    exact { closing with
      returned := fun err same => by cases same
      crashed := fun _ => .inr ⟨_, _, mem_of_getElem? busy, nothing⟩ }
  | take idle head =>
    refine { closing with
      workers := length_set.trans closing.workers, exited := fun worker member isDone => ?_
      closed := opened idle rfl, returned, crashed }
    have empty := (closing.exited worker (by grind [Worker.isDone]) isDone).2
    rw [head] at empty
    cases empty
  | deliver busy made =>
    exact { closing with
      workers := length_set.trans closing.workers
      exited := fun worker member isDone =>
        closing.exited worker (by grind [Worker.isDone]) isDone
      closed := opened busy rfl
      drained := fun closed => opened busy rfl (closing.drained closed).1, returned, crashed }
  | exit idle ended empty =>
    exact { closing with
      workers := length_set.trans closing.workers, exited := fun _ _ _ => ⟨ended, empty⟩
      closed := opened idle rfl, returned, crashed }
  | closeResults unclosed all =>
    exact { closing with
      closed := fun _ => all_eq_true.mp all
      drained := fun closed => ⟨rfl, (closing.drained closed).2⟩, returned, crashed }
  | receive head =>
    refine { closing with drained := fun closed => ?_, returned, crashed }
    have empty := (closing.drained closed).2
    rw [head] at empty
    cases empty
  | closeErr closed empty unclosed =>
    exact { closing with drained := fun _ => ⟨closed, empty⟩, returned, crashed }
  | finish closed =>
    refine { closing with
      returned := fun err same => ?_, crashed := fun same => by cases same }
    cases same
    exact ⟨closed, rfl⟩

end OrderedPipeline
