import Curio.GoRuntime

/-! `processHeadChange` of `WdPostTask` and of `WdPostRecoverDeclareTask`: the tasks that are
requested for a new tipset, miner by miner in the order in which the set of miners is walked
through. Addresses, partitions and their bitfields are those of the libraries. -/

namespace Curio.Window.HeadChange

open GoRuntime List Finset

/-- What is read of a `dline.Info`: fields, and the results of `PeriodStarted` and
`NextPeriodStart`. -/
structure DeadlineInfo where
  index : Nat
  periodStart : Int
  nextPeriodStart : Int
  periodStarted : Bool
  wPoStPeriodDeadlines : Nat

structure WdTaskIdentity where
  spID : Nat
  provingPeriodStart : Int
  deadlineIndex : Nat
  partitionIndex : Nat
  deriving DecidableEq

structure Env (Address Partition : Type) where
  idFromAddress : Address → Call Nat
  stateMinerProvingDeadline : Address → Call DeadlineInfo
  stateMinerPartitions : Address → Nat → Call (List Partition)
  /-- `SubtractBitField` of the faulty and the recovering sectors, and its `Count`. -/
  unrecovered : Partition → Call (Call Nat)
  /-- The task function is not nil. -/
  taskFunc : Bool

variable {Address Partition : Type}

/-- Where the two loops differ: the deadline, its period, the partitions that get a task and what
comes of a nil task function. -/
structure Schedule (Partition : Type) where
  deadline : DeadlineInfo → Nat
  period : DeadlineInfo → Int
  wanted : Partition → Go Bool
  noTaskFunc : Fault

def wdPostTask : Schedule Partition where
  deadline := DeadlineInfo.index
  period := DeadlineInfo.periodStart
  wanted _ := .ok true
  noTaskFunc := .error "no task func"

def declDeadline (di : DeadlineInfo) : Nat := (di.index + 2) % di.wPoStPeriodDeadlines

def wdPostRecoverDeclareTask (env : Env Address Partition) : Schedule Partition where
  deadline := declDeadline
  period di := if declDeadline di ≠ di.index + 2 then di.nextPeriodStart else di.periodStart
  wanted partition := do
    let unrecovered ← wrap "subtracting recovered set from fault set"
      (ofCall (env.unrecovered partition))
    let uc ← wrap "counting unrecovered sectors" (ofCall unrecovered)
    pure (uc ≠ 0)
  noTaskFunc := .panic "invalid memory address or nil pointer dereference"

namespace Schedule

variable (schedule : Schedule Partition)

/-- The loop over the partitions: the requested tasks, and what the loop ends with. -/
def request (taskFunc : Bool) (tid : Nat → WdTaskIdentity) :
    List (Partition × Nat) → List WdTaskIdentity × Go Unit
  | [] => ([], .ok ())
  | (partition, pidx) :: rest =>
    match schedule.wanted partition with
    | .error fault => ([], .error fault)
    | .ok false => request taskFunc tid rest
    | .ok true =>
      if taskFunc then
        let (requested, result) := request taskFunc tid rest
        (tid pidx :: requested, result)
      else ([], .error schedule.noTaskFunc)

def identity (aid : Nat) (di : DeadlineInfo) (pidx : Nat) : WdTaskIdentity :=
  ⟨aid, schedule.period di, schedule.deadline di, pidx⟩

/-- The requested tasks, and what is returned. A miner that proves nothing yet ends the loop. -/
def processHeadChange (env : Env Address Partition) : List Address → List WdTaskIdentity × Go Unit
  | [] => ([], .ok ())
  | act :: others =>
    match env.idFromAddress act with
    | .error message => ([], fail ("getting miner ID: " ++ message))
    | .ok aid =>
      match env.stateMinerProvingDeadline act with
      | .error message => ([], fail message)
      | .ok di =>
        if ¬di.periodStarted then ([], .ok ())
        else
          match env.stateMinerPartitions act (schedule.deadline di) with
          | .error message => ([], fail ("getting partitions: " ++ message))
          | .ok partitions =>
            match schedule.request env.taskFunc (schedule.identity aid di) partitions.zipIdx with
            | (own, .error fault) => (own, .error fault)
            | (own, .ok ()) =>
              let (requested, result) := processHeadChange env others
              (own ++ requested, result)

end Schedule

/-- A chain state in which the API calls succeed. -/
structure Chain (Address Partition : Type) where
  deadline : Address → DeadlineInfo
  partitions : Address → Nat → List Partition

def Chain.env (chain : Chain Address Partition) (idFromAddress : Address → Call Nat)
    (unrecovered : Partition → Call (Call Nat)) : Env Address Partition where
  idFromAddress := idFromAddress
  stateMinerProvingDeadline act := .ok (chain.deadline act)
  stateMinerPartitions act index := .ok (chain.partitions act index)
  unrecovered := unrecovered
  taskFunc := true

section

variable (schedule : Schedule Partition) (chain : Chain Address Partition)
  (idFromAddress : Address → Call Nat) (unrecovered : Partition → Call (Call Nat))

def Started (act : Address) : Prop := (chain.deadline act).periodStarted = true

def due (act : Address) : List Partition :=
  chain.partitions act (schedule.deadline (chain.deadline act))

/-- Every wanted partition of every miner whose period has started has its task. -/
def AllRequested (miners : Finset Address) (requested : List WdTaskIdentity) : Prop :=
  ∀ act ∈ miners, Started chain act → ∀ pidx partition, (due schedule chain act)[pidx]? =
    some partition → schedule.wanted partition = .ok true →
      ∃ aid, idFromAddress act = .ok aid ∧
        schedule.identity aid (chain.deadline act) pidx ∈ requested

/-- The partitions of the miner can be counted. -/
def Readable (act : Address) : Prop :=
  ∀ partition ∈ due schedule chain act, ∃ wanted, schedule.wanted partition = .ok wanted

variable {schedule chain idFromAddress unrecovered}

theorem request_readable (tid : Nat → WdTaskIdentity) {partitions : List (Partition × Nat)}
    (readable : ∀ entry ∈ partitions, ∃ wanted, schedule.wanted entry.1 = .ok wanted) :
    ∃ own, schedule.request true tid partitions = (own, .ok ()) ∧
      ∀ entry ∈ partitions, schedule.wanted entry.1 = .ok true → tid entry.2 ∈ own := by
  induction partitions with
  | nil => exact ⟨[], rfl, nofun⟩
  | cons first rest ih =>
    obtain ⟨⟨here, counted⟩, later⟩ := forall_mem_cons.mp readable
    obtain ⟨own, ends, requested⟩ := ih later
    cases here with
    | false =>
      refine ⟨own, ?_, forall_mem_cons.mpr ⟨fun wanted => ?_, requested⟩⟩
      · simp only [Schedule.request, counted, ends]
      · cases counted.symm.trans wanted
    | true =>
      refine ⟨tid first.2 :: own, ?_, forall_mem_cons.mpr ⟨fun _ => mem_cons_self, ?_⟩⟩
      · simp only [Schedule.request, counted, ends, if_true]
      · exact fun entry member wanted => mem_cons_of_mem _ (requested entry member wanted)

theorem processHeadChange_started {order : List Address}
    (passes : ∀ act ∈ order, (∃ aid, idFromAddress act = .ok aid) ∧ Started chain act)
    (readable : ∀ act ∈ order, Readable schedule chain act) {act : Address} (member : act ∈ order)
    {pidx : Nat} {partition : Partition}
    (there : (due schedule chain act)[pidx]? = some partition)
    (wanted : schedule.wanted partition = .ok true) :
    ∃ aid, idFromAddress act = .ok aid ∧ schedule.identity aid (chain.deadline act) pidx ∈
      (schedule.processHeadChange (chain.env idFromAddress unrecovered) order).1 := by
  induction order with
  | nil => cases member
  | cons first others ih =>
    obtain ⟨⟨⟨aid, known⟩, begun⟩, laterPass⟩ := forall_mem_cons.mp passes
    obtain ⟨counted, laterCounted⟩ := forall_mem_cons.mp readable
    have each : ∀ entry ∈ (due schedule chain first).zipIdx,
        ∃ wanted, schedule.wanted entry.1 = .ok wanted :=
      fun entry inside => counted entry.1 (fst_mem_of_mem_zipIdx inside)
    obtain ⟨own, ends, requested⟩ :=
      request_readable (schedule.identity aid (chain.deadline first)) each
    have started : (chain.deadline first).periodStarted = true := begun
    have loop : schedule.processHeadChange (chain.env idFromAddress unrecovered) (first :: others) =
        (own ++ (schedule.processHeadChange (chain.env idFromAddress unrecovered) others).1,
          (schedule.processHeadChange (chain.env idFromAddress unrecovered) others).2) := by
      rw [due] at ends
      simp only [Schedule.processHeadChange, Chain.env, known, started, ends]
      rfl
    rw [loop]
    rcases mem_cons.mp member with rfl | later
    · exact ⟨aid, known, mem_append_left _
        (requested (partition, pidx) (mem_zipIdx_iff_getElem?.mpr there) wanted)⟩
    · obtain ⟨aid, known, there⟩ := ih laterPass laterCounted later
      exact ⟨aid, known, mem_append_right _ there⟩

variable [DecidableEq Address]

/-- Whatever the order of the miners, every one gets its tasks exactly if all of them have ID
addresses and their periods have started, or if no miner has a partition that wants a task. -/
theorem all_requested_iff {miners : Finset Address}
    (readable : ∀ act ∈ miners, Readable schedule chain act) :
    (∀ order : List Address, order.Nodup → order.toFinset = miners →
      AllRequested schedule chain idFromAddress miners
        (schedule.processHeadChange (chain.env idFromAddress unrecovered) order).1) ↔
    (∀ act ∈ miners, (∃ aid, idFromAddress act = .ok aid) ∧ Started chain act) ∨
      ∀ act ∈ miners, Started chain act → ∀ partition ∈ due schedule chain act,
        schedule.wanted partition ≠ .ok true := by
  constructor
  · intro requested
    by_contra neither
    push Not at neither
    obtain ⟨⟨idle, known, stops⟩, act, member, started, partition, inside, wanted⟩ := neither
    obtain ⟨pidx, there⟩ := mem_iff_getElem?.mp inside
    -- the miner that ends the loop comes first
    have every := requested (idle :: (miners.erase idle).toList) (by simp [nodup_toList])
      (by simp [insert_erase known]) act member started pidx partition there wanted
    have nothing : (schedule.processHeadChange (chain.env idFromAddress unrecovered)
        (idle :: (miners.erase idle).toList)).1 = [] := by
      cases found : idFromAddress idle with
      | error message => simp only [Schedule.processHeadChange, Chain.env, found]
      | ok aid =>
        have unstarted := stops ⟨aid, found⟩
        rw [Started] at unstarted
        simp [Schedule.processHeadChange, Chain.env, found, unstarted]
    rw [nothing] at every
    obtain ⟨aid, -, none⟩ := every
    cases none
  · rintro (passes | nothing) order - rfl act member begun pidx partition there wanted
    · exact processHeadChange_started (by simpa using passes) (by simpa using readable)
        (mem_toFinset.mp member) there wanted
    · exact absurd wanted (nothing act member begun partition (mem_of_getElem? there))

end

/-- Miners by their addresses: a number is an ID address, a text is not. The second one's period has
not started. -/
def threeMiners : Chain (Nat ⊕ String) Nat where
  deadline act := ⟨46, 0, 2880, act ≠ .inl 2, 48⟩
  partitions _ _ := [0, 3]

def idOf : Nat ⊕ String → Call Nat
  | .inl id => .ok id
  | .inr _ => .error "cannot get id from non id address"

def counts (faults : Nat) : Call (Call Nat) := .ok (.ok faults)

theorem all_requested_iff_two :
    AllRequested wdPostTask threeMiners idOf {.inl 1, .inl 4}
      (wdPostTask.processHeadChange (threeMiners.env idOf counts) [.inl 4, .inl 1]).1 := by
  have passes : ∀ act ∈ ({.inl 1, .inl 4} : Finset (Nat ⊕ String)),
      (∃ aid, idOf act = .ok aid) ∧ Started threeMiners act := by
    simp [idOf, Started, threeMiners]
  exact (all_requested_iff fun _ _ _ _ => ⟨true, rfl⟩).mpr (.inl passes) _ (by decide) (by decide)

theorem stopping_miner_ends_loop :
    let env := threeMiners.env idOf counts
    wdPostTask.processHeadChange env [.inl 2, .inl 1] = ([], .ok ()) ∧
      wdPostTask.processHeadChange env [.inl 1, .inl 2] = ([⟨1, 0, 46, 0⟩, ⟨1, 0, 46, 1⟩], .ok ()) ∧
      wdPostTask.processHeadChange env [.inr "t3", .inl 1] =
        ([], fail "getting miner ID: cannot get id from non id address") ∧
      (wdPostRecoverDeclareTask env).processHeadChange env [.inl 2, .inl 1] = ([], .ok ()) ∧
      (wdPostRecoverDeclareTask env).processHeadChange env [.inl 1, .inl 2] =
        ([⟨1, 2880, 0, 1⟩], .ok ()) := by
  decide

end Curio.Window.HeadChange
