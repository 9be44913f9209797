import Curio.Pdp.ReorgCheck

/-! Which transactions the reorg checks of a whole sequence of runs look at.

The window of a run starts at the end of the run before it, while the window of that run had ended
twenty minutes before its start, and a send is in the window of one run at most. So a transaction is
checked only if it is past finality at the one run that has it in its window. -/

namespace Curio.Pdp.ReorgCheck

open GoRuntime List

def EndedBy (history : List HistoryRow) (time : Time) : Prop :=
  ∀ lastEnd, lastSuccessfulRunEnd history = some lastEnd → lastEnd ≤ time

variable {network : Network} {history : List HistoryRow} {runs : List Run} {run : Run}
  {head : TipSet} {headEpoch : Nat} {c : Candidate} {window : Window} {send : SendRow}
  {tables : Tables} {sendTime : Time} {now time : Time} {node : Node} {steps position later : Nat}
  {txHash : Hash} {report : Report}

theorem window_since_le :
    (reorgCheckTimeWindow network head now history).since ≤ time ↔
      epochLookback network head ≤ time ∧ EndedBy history time := by
  grind [reorgCheckTimeWindow, EndedBy]

theorem window_upTo :
    (reorgCheckTimeWindow network head now history).upTo = now - reorgCheckMinAge := by
  grind [reorgCheckTimeWindow]

theorem endedBy_iff (real : zeroTime < time) :
    EndedBy history time ↔ ∀ row ∈ history, row.counts = true → row.workEnd ≤ time := by
  unfold EndedBy lastSuccessfulRunEnd
  cases latest : ((history.filter HistoryRow.counts).map HistoryRow.workEnd).max? with
  | none =>
    have empty := map_eq_nil_iff.mp (max?_eq_none_iff.mp latest)
    simpa [filter_eq_nil_iff] using fun row member counts =>
      absurd counts (filter_eq_nil_iff.mp empty row member)
  | some lastEnd =>
    obtain ⟨member, bound⟩ := max?_eq_some_iff.mp latest
    have most : lastEnd ≤ time ↔ ∀ row ∈ history, row.counts = true → row.workEnd ≤ time := by
      constructor
      · intro late row here counts
        exact (bound _ (mem_map_of_mem (mem_filter.mpr ⟨here, counts⟩))).trans late
      · grind
    grind

theorem sentIn_eq_some :
    send.sentIn window = some time ↔ send.sendTime = some time ∧ send.sendSuccess = some true ∧
      window.since ≤ time ∧ time ≤ window.upTo ∧ send.sendReason ∈ pdpv0SendReasons := by
  grind [SendRow.sentIn]

theorem confirmedCandidate_eq_some {wait : WaitRow} :
    confirmedCandidate network window headEpoch wait send = some c ↔
      ∃ number, send.sentIn window = some c.sendTime ∧ wait.confirmedBlockNumber = some number ∧
        send.signedHash = wait.signedTxHash ∧ wait.txStatus = .confirmed ∧
        wait.txSuccess = some true ∧ (network.chainFinality : Int) ≤ headEpoch - number ∧
        c = ⟨send.signedHash, send.sendReason, c.sendTime, some number, wait.receiptBlockHash⟩ := by
  grind [confirmedCandidate]

theorem waitlessCandidate_eq_some :
    waitlessCandidate tables window send = some c ↔
      send.sentIn window = some c.sendTime ∧
        (∀ wait ∈ tables.waits, wait.signedTxHash ≠ send.signedHash) ∧
        (∀ event ∈ tables.reorgEvents, event.txHash ≠ send.signedHash) ∧
        c = ⟨send.signedHash, send.sendReason, c.sendTime, none, none⟩ := by
  grind [waitlessCandidate]

theorem mem_selectCandidates :
    c ∈ selectCandidates network tables window headEpoch ↔
      (∃ wait ∈ tables.waits, ∃ send ∈ tables.sends,
        confirmedCandidate network window headEpoch wait send = some c) ∨
      ∃ send ∈ tables.sends, waitlessCandidate tables window send = some c := by
  simp [selectCandidates]

theorem mem_window_of_candidate (member : c ∈ selectCandidates network tables window headEpoch) :
    window.since ≤ c.sendTime ∧ c.sendTime ≤ window.upTo := by
  rcases mem_selectCandidates.mp member with ⟨_, _, send, _, made⟩ | ⟨send, _, made⟩
  · obtain ⟨_, sent, _⟩ := confirmedCandidate_eq_some.mp made
    obtain ⟨_, _, late, early, _⟩ := sentIn_eq_some.mp sent
    exact ⟨late, early⟩
  · obtain ⟨_, _, late, early, _⟩ := sentIn_eq_some.mp (waitlessCandidate_eq_some.mp made).1
    exact ⟨late, early⟩

/-- The receipt shows a block behind finality, or there is none and the send is that old. -/
def ReceiptFinal (network : Network) (run : Run) (headEpoch : Nat) (txHash : Hash)
    (sendTime : Time) : Prop :=
  match run.node.transactionReceipt txHash with
  | .error .notFound => network.finalityAge ≤ run.askedAt txHash - sendTime
  | .error (.failed _) => False
  | .ok none => False
  | .ok (some receipt) => (network.chainFinality : Int) ≤ headEpoch - receipt.blockNumber

def Ready (network : Network) (run : Run) (headEpoch : Nat) (c : Candidate) : Prop :=
  ∃ confirmation, confirmationForCheck network run headEpoch c = .ok confirmation ∧
    confirmation.ready = true

theorem ready_stored {number : Nat} {stored : Hash} (confirmed : c.confirmEpoch = some number)
    (receipt : c.storedBlockHash = some stored) :
    Ready network run headEpoch c ↔ (network.chainFinality : Int) ≤ headEpoch - number := by
  unfold Ready confirmationForCheck
  rw [confirmed, receipt]
  dsimp only
  split_ifs with shallow
  · simpa using shallow
  · simpa using shallow

theorem ready_asked (unknown : c.confirmEpoch = none ∨ c.storedBlockHash = none) :
    Ready network run headEpoch c ↔ ReceiptFinal network run headEpoch c.txHash c.sendTime := by
  have asks : Ready network run headEpoch c ↔
      Ready network run headEpoch { c with confirmEpoch := none } := by
    unfold Ready confirmationForCheck
    rcases unknown with none | none <;> rw [none]
    cases c.confirmEpoch <;> rfl
  rw [asks]
  unfold Ready confirmationForCheck ReceiptFinal
  match run.node.transactionReceipt c.txHash with
  | .error .notFound =>
    split_ifs with young
    · simpa using young
    · simpa using young
  | .error (.failed message) => simp [fail]
  | .ok none => simp
  | .ok (some receipt) =>
    dsimp only
    split_ifs with shallow
    · simpa using shallow
    · simpa using shallow

variable {candidates : List Candidate} {start sorted : Sorted}

theorem sortCandidates_spec
    (done : sortCandidates network run headEpoch candidates start = .ok (some sorted)) :
    (∀ c, (c ∈ sorted.toVerify.map Prod.fst ∨ c ∈ sorted.toRollback) ↔
      (c ∈ start.toVerify.map Prod.fst ∨ c ∈ start.toRollback) ∨
        c ∈ candidates ∧ Ready network run headEpoch c) ∧
    ∀ pair ∈ sorted.toVerify, pair ∈ start.toVerify ∨ pair.2.txHash = pair.1.txHash := by
  induction candidates generalizing start with
  | nil => grind [sortCandidates]
  | cons head rest ih =>
    rw [sortCandidates] at done
    split_ifs at done with lost
    · cases done
    · obtain ⟨confirmation, wrapped, done⟩ := bind_eq_ok.mp done
      have confirmed := wrap_eq_ok.mp wrapped
      have ready : Ready network run headEpoch head ↔ confirmation.ready = true := by
        grind [Ready]
      -- the head is skipped, put behind the rollbacks or behind the checks
      grind

inductive Canonical (node : Node) : Block → Prop
  | head {block : Block} (answer : node.headBlock = .ok (some block)) : Canonical node block
  | parent {child block : Block} (known : Canonical node child)
      (answer : node.blockByHash child.parentHash = .ok (some block)) : Canonical node block

def OnChain (node : Node) (txHash : Hash) : Prop :=
  ∃ block, Canonical node block ∧ txHash ∈ block.transactions

theorem walk_found {least : Nat} {start : Option Block} {pending left : List Hash}
    (canonical : ∀ block, start = some block → Canonical node block)
    (walked : walk node least steps start pending = .ok left) (wanted : txHash ∈ pending)
    (crossed : txHash ∉ left) : OnChain node txHash := by
  induction steps generalizing start pending with
  | zero =>
    cases start with
    | none => grind [walk]
    | some block => grind [OnChain, walk]
  | succ steps ih =>
    cases start with
    | none => grind [walk]
    | some block =>
      by_cases here : txHash ∈ block.transactions
      · exact ⟨block, canonical block rfl, here⟩
      · have still : txHash ∈ pending.filter (fun hash => hash ∉ block.transactions) := by
          simpa [wanted] using here
        rw [walk] at walked
        split_ifs at walked with ends
        · grind
        · obtain ⟨parent, answer, walked⟩ := bind_eq_ok.mp walked
          have known := ofCall_eq_ok.mp (wrap_eq_ok.mp answer)
          refine ih ?_ walked still
          rintro next rfl
          exact (canonical block rfl).parent known

theorem notIncluded_false {checks : List InclusionCheck} {notIncluded : Hash → Bool}
    (returned : txsNotIncludedInCanonicalChain node steps checks = .ok notIncluded)
    {check : InclusionCheck} (member : check ∈ checks) (included : notIncluded check.txHash = false) :
    OnChain node check.txHash := by
  unfold txsNotIncludedInCanonicalChain at returned
  rw [if_neg (ne_nil_of_mem member)] at returned
  obtain ⟨head, answer, returned⟩ := bind_eq_ok.mp returned
  have known := ofCall_eq_ok.mp (wrap_eq_ok.mp answer)
  obtain ⟨pending, walked, made⟩ := bind_eq_ok.mp returned
  cases made
  have wanted : check.txHash ∈ checks.map InclusionCheck.txHash := mem_map_of_mem member
  refine walk_found ?_ walked wanted (by simpa [wanted] using included)
  rintro block rfl
  exact .head known

def Claimed (tables : Tables) (txHash : Hash) : Prop :=
  ∃ event ∈ tables.reorgEvents, event.txHash = txHash

theorem rollbackReorgCandidate_claims {next : Tables}
    (done : rollbackReorgCandidate c tables = .ok next) :
    Claimed next c.txHash ∧ ∀ txHash, Claimed tables txHash → Claimed next txHash := by
  unfold rollbackReorgCandidate at done
  split_ifs at done with claimed
  · grind [Claimed]
  · obtain ⟨waits, -, made⟩ := bind_eq_ok.mp done
    cases made
    refine ⟨⟨⟨c.txHash, c.sendReason⟩, by simp, rfl⟩, ?_⟩
    rintro txHash ⟨event, member, same⟩
    exact ⟨event, mem_append_left _ member, same⟩

theorem rollbackAll_claims {toRollback : List Candidate} {final : Tables}
    (done : rollbackAll run toRollback tables = .ok (some final)) :
    (∀ c ∈ toRollback, Claimed final c.txHash) ∧
      ∀ txHash, Claimed tables txHash → Claimed final txHash := by
  induction toRollback generalizing tables with
  | nil => grind [rollbackAll]
  | cons head rest ih =>
    rw [rollbackAll] at done
    split_ifs at done with lost
    · cases done
    · obtain ⟨next, rolled, done⟩ := bind_eq_ok.mp done
      obtain ⟨claimed, kept⟩ := rollbackReorgCandidate_claims rolled
      grind

structure Done (network : Network) (history : List HistoryRow) (run : Run) (report : Report)
    (head : TipSet) : Prop where
  chainHead : run.chainHead = .ok head
  window : report.window = reorgCheckTimeWindow network head run.now history
  candidates : report.candidates = selectCandidates network run.tables report.window head.height
  checked (c : Candidate) : (c ∈ report.found ∨ c ∈ report.rolledBack) ↔
    c ∈ report.candidates ∧ Ready network run head.height c
  found (c : Candidate) : c ∈ report.found → OnChain run.node c.txHash
  rolledBack (c : Candidate) : c ∈ report.rolledBack → Claimed report.tables c.txHash

theorem Do_done (succeeded : run.Do network history = .ok (some report)) :
    ∃ head, Done network history run report head := by
  obtain ⟨head, answer, succeeded⟩ := bind_eq_ok.mp succeeded
  have known := ofCall_eq_ok.mp (wrap_eq_ok.mp answer)
  obtain ⟨sortResult, sorting, succeeded⟩ := bind_eq_ok.mp succeeded
  cases sortResult with
  | none => cases succeeded
  | some sorted =>
    obtain ⟨notIncluded, wrapped, succeeded⟩ := bind_eq_ok.mp succeeded
    have walked := wrap_eq_ok.mp wrapped
    obtain ⟨rollResult, rolling, succeeded⟩ := bind_eq_ok.mp succeeded
    cases rollResult with
    | none => cases succeeded
    | some tables =>
      cases succeeded
      refine ⟨head, known, rfl, rfl, ?_, ?_, (rollbackAll_claims rolling).1⟩
      · intro c
        have spec := (sortCandidates_spec sorting).1 c
        simp only [mem_append, mem_map, mem_filter]
        grind
      · intro c member
        obtain ⟨pair, kept, rfl⟩ := mem_map.mp member
        obtain ⟨member, included⟩ := mem_filter.mp kept
        rw [← ((sortCandidates_spec sorting).2 pair member).resolve_left not_mem_nil]
        exact notIncluded_false walked (mem_map_of_mem member) (by simpa using included)

/-- The history that a run finds: the rows before the first run and the runs before this one. -/
def historyAt (history : List HistoryRow) (runs : List Run) (position : Nat) : List HistoryRow :=
  history ++ (runs.take position).map Run.record

theorem checkAll_spec {checks : List (Run × Report)}
    (succeeded : checkAll network history runs = some checks) :
    runs = checks.map Prod.fst ∧ ∀ (position : Nat) (check : Run × Report),
      checks[position]? = some check → check.1.Do network
        (historyAt history runs position) = .ok (some check.2) := by
  induction runs generalizing history checks with
  | nil =>
    cases succeeded
    simp
  | cons run rest ih =>
    rw [checkAll] at succeeded
    split at succeeded
    · obtain ⟨later, checked, rfl⟩ := Option.map_eq_some_iff.mp succeeded
      obtain ⟨same, done⟩ := ih checked
      refine ⟨by rw [map_cons, ← same], fun position check here => ?_⟩
      cases position with
      | zero | succ position => grind [historyAt]
    · cases succeeded

def Considers (report : Report) (txHash : Hash) (sendTime : Time) : Prop :=
  ∃ c ∈ report.candidates, c.txHash = txHash ∧ c.sendTime = sendTime

def Settles (check : Run × Report) (txHash : Hash) (sendTime : Time) : Prop :=
  ∃ c ∈ check.2.candidates, c.txHash = txHash ∧ c.sendTime = sendTime ∧
    (c ∈ check.2.found ∧ OnChain check.1.node txHash ∨
      c ∈ check.2.rolledBack ∧ Claimed check.2.tables txHash)

/-- The checks have not missed a transaction: one of them has settled it, its send time is not
between two windows, and where a check skips it a later one takes it up again. -/
structure NotMissed (checks : List (Run × Report)) (txHash : Hash) (sendTime : Time) : Prop where
  settled : ∃ check ∈ checks, Settles check txHash sendTime
  inWindows : ∀ position former latter, checks[position]? = some former →
    checks[position + 1]? = some latter →
    ¬ (former.2.window.upTo < sendTime ∧ sendTime < latter.2.window.since)
  takenUpAgain : ∀ position check, checks[position]? = some check →
    Considers check.2 txHash sendTime → ¬ Settles check txHash sendTime →
    ∃ (next : Nat) (later : Run × Report), position < next ∧ checks[next]? = some later ∧
      Considers later.2 txHash sendTime

/-- The transaction is past finality as a run sees it: by its confirmed wait, or without a wait by
its receipt. -/
def PastFinality (network : Network) (run : Run) (headEpoch : Nat) (txHash : Hash)
    (sendTime : Time) : Prop :=
  (∃ wait ∈ run.tables.waits, ∃ number, wait.signedTxHash = txHash ∧ wait.txStatus = .confirmed ∧
    wait.txSuccess = some true ∧ wait.confirmedBlockNumber = some number ∧
    (network.chainFinality : Int) ≤ headEpoch - number ∧
    (wait.receiptBlockHash = none → ReceiptFinal network run headEpoch txHash sendTime)) ∨
  (∀ wait ∈ run.tables.waits, wait.signedTxHash ≠ txHash) ∧
    (∀ event ∈ run.tables.reorgEvents, event.txHash ≠ txHash) ∧
    ReceiptFinal network run headEpoch txHash sendTime

/-- The check before this run had ended when the transaction was sent, within the lookback, and
this run starts late enough: after the minimum age and past finality. -/
structure InTime (network : Network) (history : List HistoryRow) (run : Run) (head : TipSet)
    (txHash : Hash) (sendTime : Time) : Prop where
  lookback : epochLookback network head ≤ sendTime
  ended : EndedBy history sendTime
  minAge : sendTime + reorgCheckMinAge ≤ run.now
  final : PastFinality network run head.height txHash sendTime

structure InOrder (runs : List Run) : Prop where
  timed : ∀ run ∈ runs, run.now ≤ run.workEnd
  heads : ∀ run ∈ runs, ∀ head, run.chainHead = .ok head → head.minTimestamp * second ≤ run.now
  ordered : runs.Pairwise (fun earlier later => earlier.workEnd ≤ later.now)

/-- A successfully sent transaction: its row is there in every run that starts after the send. -/
structure Sent (runs : List Run) (txHash : Hash) (sendTime : Time) : Prop where
  real : zeroTime < sendTime
  row : ∀ run ∈ runs, sendTime ≤ run.now → ∃ send ∈ run.tables.sends, send.signedHash = txHash ∧
    send.sendTime = some sendTime ∧ send.sendSuccess = some true ∧
    send.sendReason ∈ pdpv0SendReasons

theorem window_of_considers (done : Done network history run report head)
    (considered : Considers report txHash sendTime) :
    epochLookback network head ≤ sendTime ∧ EndedBy history sendTime ∧
      sendTime + reorgCheckMinAge ≤ run.now := by
  obtain ⟨c, member, -, rfl⟩ := considered
  rw [done.candidates] at member
  obtain ⟨late, early⟩ := mem_window_of_candidate member
  rw [done.window] at late early
  rw [window_upTo] at early
  obtain ⟨lookback, ended⟩ := window_since_le.mp late
  exact ⟨lookback, ended, by linarith⟩

theorem pastFinality_of_ready (member : c ∈ selectCandidates network run.tables window headEpoch)
    (ready : Ready network run headEpoch c) :
    PastFinality network run headEpoch c.txHash c.sendTime := by
  rcases mem_selectCandidates.mp member with ⟨wait, known, send, _, made⟩ | ⟨send, _, made⟩
  · obtain ⟨number, _, confirmed, same, status, success, deep, shape⟩ :=
      confirmedCandidate_eq_some.mp made
    rw [shape]
    refine .inl ⟨wait, known, number, same.symm, status, success, confirmed, deep, ?_⟩
    intro unknown
    have asked := (ready_asked (.inr (by rw [shape]; exact unknown))).mp ready
    rwa [shape] at asked
  · obtain ⟨_, waitless, unclaimed, shape⟩ := waitlessCandidate_eq_some.mp made
    have asked := (ready_asked (.inl (by rw [shape]))).mp ready
    rw [shape] at asked ⊢
    exact .inr ⟨waitless, unclaimed, asked⟩

/-- A row sent in the window of a run that is past finality is a candidate that is ready. -/
theorem ready_of_pastFinality (known : send ∈ run.tables.sends)
    (sent : send.sentIn window = some sendTime)
    (final : PastFinality network run headEpoch send.signedHash sendTime) :
    ∃ c ∈ selectCandidates network run.tables window headEpoch, c.txHash = send.signedHash ∧
      c.sendTime = sendTime ∧ Ready network run headEpoch c := by
  rcases final with ⟨wait, member, number, same, status, success, confirmed, deep, asked⟩ | waitless
  · refine ⟨⟨send.signedHash, send.sendReason, sendTime, some number, wait.receiptBlockHash⟩,
      mem_selectCandidates.mpr (.inl ⟨wait, member, send, known, confirmedCandidate_eq_some.mpr
        ⟨number, sent, confirmed, same.symm, status, success, deep, rfl⟩⟩), rfl, rfl, ?_⟩
    cases stored : wait.receiptBlockHash with
    | none => exact (ready_asked (.inr rfl)).mpr (asked stored)
    | some blockHash => exact (ready_stored rfl rfl).mpr deep
  · obtain ⟨free, unclaimed, asked⟩ := waitless
    exact ⟨⟨send.signedHash, send.sendReason, sendTime, none, none⟩,
      mem_selectCandidates.mpr (.inr ⟨send, known, waitlessCandidate_eq_some.mpr
        ⟨sent, free, unclaimed, rfl⟩⟩), rfl, rfl, (ready_asked (.inl rfl)).mpr asked⟩

/-- One run settles what it has in its window past finality, and nothing else. -/
theorem settles_iff (done : Done network history run report head) (sent : Sent runs txHash sendTime)
    (known : run ∈ runs) :
    Settles (run, report) txHash sendTime ↔ InTime network history run head txHash sendTime := by
  constructor
  · rintro ⟨c, member, rfl, rfl, outcome⟩
    obtain ⟨lookback, ended, minAge⟩ := window_of_considers done ⟨c, member, rfl, rfl⟩
    have checked : c ∈ report.found ∨ c ∈ report.rolledBack :=
      outcome.imp And.left And.left
    have ready := ((done.checked c).mp checked).2
    rw [done.candidates] at member
    exact ⟨lookback, ended, minAge, pastFinality_of_ready member ready⟩
  · intro timely
    have started : sendTime ≤ run.now :=
      le_trans (by simp [reorgCheckMinAge, minute, second]) timely.minAge
    obtain ⟨send, member, rfl, time, success, reason⟩ := sent.row run known started
    have inside : send.sentIn report.window = some sendTime := by
      rw [sentIn_eq_some, done.window, window_upTo, window_since_le]
      exact ⟨time, success, ⟨timely.lookback, timely.ended⟩, by linarith [timely.minAge], reason⟩
    obtain ⟨c, candidate, same, sentAt, ready⟩ :=
      ready_of_pastFinality member inside timely.final
    rw [← done.candidates] at candidate
    refine ⟨c, candidate, same, sentAt, ?_⟩
    rcases (done.checked c).mpr ⟨candidate, ready⟩ with found | rolledBack
    · exact .inl ⟨found, same ▸ done.found c found⟩
    · exact .inr ⟨rolledBack, same ▸ done.rolledBack c rolledBack⟩

section

variable (real : zeroTime < sendTime)
include real

theorem ended_before (before : position < later)
    (ended : EndedBy (historyAt history runs later) sendTime) (here : runs[position]? = some run) :
    run.workEnd ≤ sendTime := by
  refine (endedBy_iff real).mp ended run.record ?_ (by rfl)
  refine mem_append_right _ (mem_map_of_mem (mem_iff_getElem?.mpr ⟨position, ?_⟩))
  rw [getElem?_take_of_lt before]
  exact here

theorem endedBy_earlier (before : position ≤ later)
    (ended : EndedBy (historyAt history runs later) sendTime) :
    EndedBy (historyAt history runs position) sendTime := by
  rw [endedBy_iff real] at ended ⊢
  intro row member
  apply ended row
  rcases mem_append.mp member with first | record
  · exact mem_append_left _ first
  · refine mem_append_right _ (map_subset _ ?_ record)
    exact ( take_prefix_take_left before).subset

theorem window_alone (timed : ∀ run ∈ runs, run.now ≤ run.workEnd) {first second : Nat}
    {one other : Run} (here : runs[first]? = some one) (there : runs[second]? = some other)
    (firstEnded : EndedBy (historyAt history runs first) sendTime)
    (firstAge : sendTime + reorgCheckMinAge ≤ one.now)
    (secondEnded : EndedBy (historyAt history runs second) sendTime)
    (secondAge : sendTime + reorgCheckMinAge ≤ other.now) : first = second := by
  have positive : 0 < reorgCheckMinAge := by decide
  rcases lt_trichotomy first second with before | same | after
  · have ended := ended_before real before secondEnded here
    grind
  · exact same
  · have ended := ended_before real after firstEnded there
    grind

theorem not_between (ordered : InOrder runs) (here : runs[position]? = some run)
    (chainHead : run.chainHead = .ok head)
    (timely : InTime network (historyAt history runs position) run head txHash sendTime)
    {place : Nat} {former latter : Run} {formerReport latterReport : Report}
    {formerHead latterHead : TipSet} (one : runs[place]? = some former)
    (next : runs[place + 1]? = some latter)
    (formerDone : Done network (historyAt history runs place) former formerReport formerHead)
    (latterDone : Done network (historyAt history runs (place + 1)) latter latterReport latterHead) :
    ¬ (formerReport.window.upTo < sendTime ∧ sendTime < latterReport.window.since) := by
  rintro ⟨after, before⟩
  rw [formerDone.window, window_upTo] at after
  rw [latterDone.window, ← not_le, window_since_le] at before
  rcases lt_or_ge place position with behind | ahead
  · -- the latter run is the one with the send or an earlier one
    refine before ⟨?_, endedBy_earlier real behind timely.ended⟩
    rcases lt_or_eq_of_le (Nat.succ_le_of_lt behind) with earlier | same
    · have worked := ended_before real earlier timely.ended next
      have timed := ordered.timed latter (mem_of_getElem? next)
      have headTime := ordered.heads latter (mem_of_getElem? next) _ latterDone.chainHead
      have span : 0 ≤ (reorgCheckMaxLookbackEpochs * network.blockDelaySecs : Int) * second :=
        mul_nonneg (by positivity) (by decide)
      unfold epochLookback
      linarith
    · subst same
      cases here.symm.trans next
      cases chainHead.symm.trans latterDone.chainHead
      exact timely.lookback
  · -- the former run starts no earlier than the one with the send
    have starts : run.now ≤ former.now := by
      rcases lt_or_eq_of_le ahead with earlier | same
      · have timed := ordered.timed run (mem_of_getElem? here)
        have follows : run.workEnd ≤ former.now := by
          obtain ⟨bound, rfl⟩ := List.getElem?_eq_some_iff.mp here
          obtain ⟨bound', rfl⟩ := List.getElem?_eq_some_iff.mp one
          exact pairwise_iff_getElem.mp ordered.ordered _ _ bound bound' earlier
        exact timed.trans follows
      · grind
    linarith [timely.minAge]

end

/-- The checks miss no transaction but for those that come too early: a transaction is settled, its
send time is in a window and it is not skipped for good exactly if the one run that has it in its
window sees it past finality. -/
theorem not_missed_iff {network : Network} {history : List HistoryRow} {runs : List Run}
    {checks : List (Run × Report)} (succeeded : checkAll network history runs = some checks)
    (ordered : InOrder runs) {txHash : Hash} {sendTime : Time} (sent : Sent runs txHash sendTime) :
    NotMissed checks txHash sendTime ↔
      ∃ position run head, runs[position]? = some run ∧ run.chainHead = .ok head ∧
        InTime network (historyAt history runs position) run head txHash sendTime := by
  obtain ⟨ranAll, checkedAll⟩ := checkAll_spec succeeded
  have runOf {position : Nat} {check : Run × Report} (here : checks[position]? = some check) :
      runs[position]? = some check.1 := by
    rw [ranAll, getElem?_map, here]
    rfl
  have doneAt {position : Nat} {check : Run × Report} (here : checks[position]? = some check) :
      ∃ head, Done network (historyAt history runs position) check.1 check.2 head :=
    Do_done (checkedAll _ _ here)
  constructor
  · intro missed
    obtain ⟨check, member, settles⟩ := missed.settled
    obtain ⟨position, here⟩ := mem_iff_getElem?.mp member
    obtain ⟨head, done⟩ := doneAt here
    exact ⟨position, check.1, head, runOf here, done.chainHead,
      (settles_iff done sent (mem_of_getElem? (runOf here))).mp settles⟩
  · rintro ⟨position, run, head, here, chainHead, timely⟩
    obtain ⟨check, there, rfl⟩ : ∃ check, checks[position]? = some check ∧ check.1 = run := by
      rw [ranAll, getElem?_map] at here
      exact Option.map_eq_some_iff.mp here
    obtain ⟨head', done⟩ := doneAt there
    cases chainHead.symm.trans done.chainHead
    have settles := (settles_iff done sent (mem_of_getElem? here)).mpr timely
    refine ⟨⟨check, mem_of_getElem? there, settles⟩, ?_, ?_⟩
    · intro place former latter one next
      obtain ⟨formerHead, formerDone⟩ := doneAt one
      obtain ⟨latterHead, latterDone⟩ := doneAt next
      exact not_between sent.real ordered here chainHead timely (runOf one) (runOf next)
        formerDone latterDone
    · intro place other one considered skipped
      obtain ⟨otherHead, otherDone⟩ := doneAt one
      obtain ⟨_, ended, minAge⟩ := window_of_considers otherDone considered
      obtain rfl := window_alone sent.real ordered.timed here (runOf one) timely.ended
        timely.minAge ended minAge
      cases there.symm.trans one
      exact absurd settles skipped

def emptyNode : Node where
  headBlock := .error "not found"
  blockByHash := fun _ => .error "not found"
  transactionReceipt := fun _ => .error .notFound

def sampleRun (start : Nat) (send : SendRow) : Run where
  chainHead := .ok ⟨start / 30, start⟩
  now := start * second
  node := emptyNode
  askedAt := fun _ => start * second
  ownedAtCheck := fun _ => true
  ownedAtRollback := fun _ => true
  walkSteps := 0
  tables := ⟨[send], [], []⟩
  workEnd := (start + 60 : Nat) * second

def sampleSend (sent : Nat) : SendRow := ⟨7, .pdpProve, some (sent * second), some true⟩

def sampleRuns (starts : List Nat) (sent : Nat) : List Run :=
  starts.map (fun start => sampleRun start (sampleSend sent))

theorem sampleRuns_inOrder {starts : List Nat} (sent : Nat)
    (apart : starts.Pairwise (fun earlier later => earlier + 60 ≤ later)) :
    InOrder (sampleRuns starts sent) := by
  refine ⟨?_, ?_, ?_⟩
  · intro run member
    obtain ⟨start, -, rfl⟩ := mem_map.mp member
    exact mul_le_mul_of_nonneg_right (by exact_mod_cast Nat.le_add_right _ _) (by decide)
  · intro run member head answer
    obtain ⟨start, -, rfl⟩ := mem_map.mp member
    cases answer
    exact le_rfl
  · refine pairwise_map.mpr (apart.imp ?_)
    intro earlier later gap
    exact mul_le_mul_of_nonneg_right (by exact_mod_cast gap) (by decide)

theorem sampleRuns_sent (starts : List Nat) (sent : Nat) :
    Sent (sampleRuns starts sent) 7 (sent * second) := by
  refine ⟨?_, ?_⟩
  · grind [zeroTime, second]
  · intro run member _
    obtain ⟨start, -, rfl⟩ := mem_map.mp member
    exact ⟨sampleSend sent, mem_singleton.mpr rfl, rfl, rfl, rfl, mem_of_getElem? (i := 6) rfl⟩

theorem not_missed_dropped :
    ∃ checks, checkAll ⟨30, 900⟩ [] (sampleRuns [100000, 101800] 60000) = some checks ∧
      NotMissed checks 7 ((60000 : Nat) * second) := by
  obtain ⟨checks, succeeded⟩ := Option.isSome_iff_exists.mp
    (rfl : (checkAll ⟨30, 900⟩ [] (sampleRuns [100000, 101800] 60000)).isSome = true)
  refine ⟨checks, succeeded, (not_missed_iff succeeded (sampleRuns_inOrder _ (by decide))
    (sampleRuns_sent _ _)).mpr ⟨0, sampleRun 100000 (sampleSend 60000), ⟨3333, 100000⟩, rfl, rfl,
      ⟨by decide, ?_, by decide, .inr ⟨?_, ?_, ?_⟩⟩⟩⟩
  · rintro lastEnd ⟨⟩
  · rintro wait ⟨⟩
  · rintro event ⟨⟩
  · show Network.finalityAge ⟨30, 900⟩ ≤ (100000 : Nat) * second - (60000 : Nat) * second
    decide

/-- A transaction that is dropped, sent ten minutes before a run: that run finds it too young, and
the window of the next one starts at the end of that run. The gaps are shorter than the lookback,
and the last run comes later than finality, the minimum age and a gap after the send. -/
theorem dropped_between_windows :
    ∃ checks, checkAll ⟨30, 900⟩ [] (sampleRuns [100000, 130000, 160000] 99400) = some checks ∧
      InOrder (sampleRuns [100000, 130000, 160000] 99400) ∧
      (sampleRuns [100000, 130000, 160000] 99400).IsChain
        (fun earlier later => later.now - earlier.workEnd < 30000 * second) ∧
      30000 * second < reorgCheckMaxLookbackEpochs * 30 * second ∧
      Sent (sampleRuns [100000, 130000, 160000] 99400) 7 ((99400 : Nat) * second) ∧
      (∃ run ∈ sampleRuns [100000, 130000, 160000] 99400,
        Network.finalityAge ⟨30, 900⟩ + reorgCheckMinAge + 30000 * second <
          run.now - (99400 : Nat) * second) ∧
      ¬ NotMissed checks 7 ((99400 : Nat) * second) := by
  obtain ⟨checks, succeeded⟩ := Option.isSome_iff_exists.mp
    (rfl : (checkAll ⟨30, 900⟩ [] (sampleRuns [100000, 130000, 160000] 99400)).isSome = true)
  refine ⟨checks, succeeded, sampleRuns_inOrder _ (by decide), by decide, by decide,
    sampleRuns_sent _ _, ⟨sampleRun 160000 (sampleSend 99400), ?_, by decide⟩, ?_⟩
  · exact mem_of_getElem? (i := 2) rfl
  rintro ⟨⟨check, member, c, candidate, -⟩, -, -⟩
  have none : (checkAll ⟨30, 900⟩ [] (sampleRuns [100000, 130000, 160000] 99400)).all
      (fun checks => checks.all (fun check => check.2.candidates.isEmpty)) = true := by decide
  rw [succeeded] at none
  have empty := all_eq_true.mp none check member
  rw [isEmpty_iff.mp empty] at candidate
  cases candidate

end Curio.Pdp.ReorgCheck
