import Curio.ProofShare.ClientSend

/-! The accounting of a wallet's payments over every run of the send task: stored payments are
numbered from zero and each adds its own price, no request is paid twice, and, as long as no send
runs out of attempts, what is marked as consumed was accepted by the service. -/

namespace Curio.ProofShare

open GoRuntime StepMachine List

def Phase.Free : Phase → Prop
  | .stopped | .top | .creating | .created | .failed _ | .undoing _ => True
  | _ => False

inductive Moved (st : Wallet) (action : Action) : Wallet → Prop where
  | idle (phase : Phase) (free : phase.Free) : Moved st action (st.goto phase)
  | upload (key : RequestKey) (requestCid : String) (partitionCost : Int)
      (fresh : ∀ row ∈ st.requests, row.key ≠ key) :
      Moved st action
        { st with requests := st.requests ++ [⟨key, requestCid, partitionCost, none, false⟩] }
  | pick (request : Request) (member : request ∈ st.requests)
      (unsent : request.requestSent = false) : Moved st action (st.goto (.picked request))
  | price (request : Request) (market : PriceResponse) (here : st.phase = .picked request) :
      Moved st action
        ((st.quote market).goto (.priced request (requestPrice market request.partitionCost)))
  | create (request : Request) (price : Nat) (phase : Phase) (free : phase.Free)
      (here : st.phase = .priced request price)
      (closed : ∀ payment, lastPayment st.payments = some payment → payment.consumed = true) :
      Moved st action ((st.insertPayment request price).goto phase)
  | send (payment : Payment) (last : lastPayment st.payments = some payment) :
      Moved st action (st.goto (.sending payment))
  | lookup (payment : Payment) (row : Request) (here : st.phase = .sending payment)
      (member : row ∈ st.requests) (carried : row.paymentNonce = some payment.nonce) :
      Moved st action (st.goto (.posting payment row.requestCid 0))
  | retry (payment : Payment) (requestCid : String) (attempt next : Nat)
      (here : st.phase = .posting payment requestCid attempt) :
      Moved st action (st.goto (.posting payment requestCid next))
  | accept (payment : Payment) (requestCid : String) (attempt : Nat) (phase : Phase)
      (here : st.phase = .posting payment requestCid attempt)
      (after : phase = .marking payment ∨ phase = .failed payment) :
      Moved st action ((st.accept payment requestCid).goto phase)
  | exhaust (payment : Payment) (requestCid : String) (attempt : Nat)
      (here : st.phase = .posting payment requestCid attempt)
      (unavailable : action = .answer .unavailable) (out : maxRetries ≤ attempt + 1) :
      Moved st action (st.goto (.marking payment))
  | mark (payment : Payment) (phase : Phase) (free : phase.Free)
      (here : st.phase = .marking payment) :
      Moved st action ((st.markConsumed payment.nonce).goto phase)
  | undo (nonce : Nat) (phase : Phase) (free : phase.Free) :
      Moved st action ((st.deletePayment nonce).goto phase)

theorem pickCandidateRequest_mem {requests : List Request} {refs : List (Int × Int)}
    {request : Request} (picked : pickCandidateRequest requests refs = some request) :
    request ∈ requests := by
  unfold pickCandidateRequest at picked
  split at picked
  · grind
  · split at picked
    · next found first =>
      cases picked
      obtain ⟨ref, -, sector⟩ := exists_of_findSome?_eq_some first
      exact mem_reverse.mp (mem_of_find?_eq_some sector)
    · exact mem_of_mem_head? picked

namespace Wallet

variable {st next : Wallet}
variable {readable : Bool} {outcome : Outcome}

attribute [local grind] Phase.Free

theorem step_moved {action : Action} (stepped : st.step action = some next) :
    Moved st action next := by
  unfold step at stepped
  cases action with
  | upload key requestCid partitionCost => grind [Moved.upload]
  | run | crash | status => grind [Moved.idle]
  | readLast => grind [Moved.idle, Moved.send]
  | reread => grind [Moved.idle, Moved.send, Option.map_eq_some_iff]
  | pick spIDs refs readable =>
    have applicable (request : Request) :=
      @pickCandidateRequest_mem (applicableRequests spIDs st.requests) refs request
    grind [Moved.idle, Moved.pick, applicableRequests]
  | price => grind [Moved.idle, Moved.price]
  | create signed outcome =>
    cases outcome <;> grind [Moved.idle, Moved.create, commit]
  | lookup => grind [Moved.idle, Moved.lookup]
  | answer answer =>
    cases answer <;> grind [Moved.idle, Moved.accept, Moved.retry, Moved.exhaust]
  | mark outcome => cases outcome <;> grind [Moved.idle, Moved.mark, commit]
  | undo outcome => cases outcome <;> grind [Moved.idle, Moved.undo, commit]

end Wallet

/-- Payments are numbered from zero, each adds its price to the amount before it, and only the
last one can be unconsumed. -/
inductive Ledger : List Payment → Prop where
  | nil : Ledger []
  | concat {front : List Payment} {payment : Payment} (rest : Ledger front)
      (closed : ∀ earlier ∈ front, earlier.consumed = true)
      (numbered : payment.nonce = front.length)
      (added : payment.cumulativeAmount =
        front.getLast?.elim 0 Payment.cumulativeAmount + payment.price) :
      Ledger (front ++ [payment])

def amountBefore (payments : List Payment) : Nat → Nat
  | 0 => 0
  | index + 1 => payments[index]?.elim 0 Payment.cumulativeAmount

theorem amountBefore_append {front back : List Payment} {index : Nat}
    (inside : index ≤ front.length) :
    amountBefore (front ++ back) index = amountBefore front index := by
  cases index with
  | zero => rfl
  | succ index => simp only [amountBefore, List.getElem?_append_left inside]

theorem amountBefore_length (payments : List Payment) :
    amountBefore payments payments.length = payments.getLast?.elim 0 Payment.cumulativeAmount := by
  cases payments with
  | nil => rfl
  | cons head tail => simp [amountBefore, getLast?_eq_getElem?]

namespace Ledger

variable {payments : List Payment}

variable (ledger : Ledger payments)
include ledger

theorem at_index {index : Nat} {payment : Payment} (here : payments[index]? = some payment) :
    payment.nonce = index ∧
      payment.cumulativeAmount = amountBefore payments index + payment.price := by
  induction ledger with
  | nil => simp at here
  | @concat front last rest closed numbered added ih =>
    have bound := (List.getElem?_eq_some_iff.mp here).1
    rw [length_append] at bound
    rcases Nat.lt_succ_iff_lt_or_eq.mp bound with inside | rfl
    · rw [List.getElem?_append_left inside] at here
      rw [amountBefore_append inside.le]
      exact ih here
    · rw [getElem?_concat_length, Option.some.injEq] at here
      subst here
      rw [amountBefore_append le_rfl, amountBefore_length]
      exact ⟨numbered, added⟩

theorem nonce_lt {payment : Payment} (member : payment ∈ payments) :
    payment.nonce < payments.length := by
  obtain ⟨index, here⟩ := mem_iff_getElem?.mp member
  rw [(ledger.at_index here).1]
  exact (List.getElem?_eq_some_iff.mp here).1

theorem eq_of_nonce {first second : Payment} (left : first ∈ payments) (right : second ∈ payments)
    (same : first.nonce = second.nonce) : first = second := by
  obtain ⟨i, atFirst⟩ := mem_iff_getElem?.mp left
  obtain ⟨j, atSecond⟩ := mem_iff_getElem?.mp right
  rw [(ledger.at_index atFirst).1, (ledger.at_index atSecond).1] at same
  grind

theorem lastPayment_eq : lastPayment payments = payments.getLast? := by
  cases ledger with
  | nil => rfl
  | @concat front last rest closed numbered added =>
    rw [lastPayment, argmax_concat, getLast?_concat]
    cases greatest : argmax Payment.nonce front with
    | none => rfl
    | some earlier =>
      have below := rest.nonce_lt (argmax_mem greatest)
      simp only [numbered, if_pos below]

theorem nextNonce_eq : nextNonce payments = payments.length := by
  have last := ledger.lastPayment_eq
  rw [lastPayment] at last
  rw [nextNonce, last]
  cases ledger with
  | nil => rfl
  | concat rest closed numbered added => simp [numbered]

theorem all_consumed
    (closed : ∀ payment, lastPayment payments = some payment → payment.consumed = true) :
    ∀ payment ∈ payments, payment.consumed = true := by
  rw [ledger.lastPayment_eq] at closed
  cases ledger with
  | nil => simp
  | @concat front last rest earlier numbered added => grind

theorem consume (nonce : Nat) :
    Ledger (payments.map fun payment =>
      if payment.nonce = nonce then { payment with consumed := true } else payment) := by
  induction ledger with
  | nil => exact .nil
  | @concat front last rest closed numbered added ih =>
    rw [map_append, map_singleton]
    refine .concat ih ?_ ?_ ?_
    · grind
    · split <;> simp [numbered]
    · grind

theorem filter {keep : Payment → Bool}
    (kept : ∀ payment, payment.consumed = true → keep payment = true) :
    Ledger (payments.filter keep) := by
  cases ledger with
  | nil => exact .nil
  | @concat front last rest closed numbered added =>
    have whole : front.filter keep = front :=
      filter_eq_self.mpr fun payment member => kept payment (closed payment member)
    rw [filter_append, whole]
    cases stays : keep last with
    | false => simpa [stays] using rest
    | true => simpa [stays] using Ledger.concat rest closed numbered added

end Ledger

structure Booked (st : Wallet) : Prop where
  ledger : Ledger st.payments
  keyed : (st.requests.map Request.key).Nodup
  priced : ∀ payment ∈ st.payments, ∃ row ∈ st.requests, row.key = payment.request ∧
    ∃ market ∈ st.quotes, payment.price = requestPrice market row.partitionCost
  linked : ∀ row ∈ st.requests, ∀ nonce, row.paymentNonce = some nonce →
    ∃ payment ∈ st.payments, payment.nonce = nonce ∧ payment.request = row.key
  reserved : ∀ payment ∈ st.payments, payment.consumed = false →
    ∀ row ∈ st.requests, row.key = payment.request → row.paymentNonce = some payment.nonce
  paid : ∀ payment ∈ st.payments, payment.consumed = true →
    ∀ row ∈ st.requests, row.key = payment.request → row.requestSent = true
  sent : ∀ row ∈ st.requests, row.requestSent = true →
    ∃ payment ∈ st.payments, payment.consumed = true ∧ payment.request = row.key
  single : (st.payments.map Payment.request).Nodup

def Held (st : Wallet) : Phase → Prop
  | .picked request => request ∈ st.requests ∧ request.requestSent = false
  | .priced request price => request ∈ st.requests ∧ request.requestSent = false ∧
      ∃ market ∈ st.quotes, price = requestPrice market request.partitionCost
  | _ => True

theorem Phase.Free.held {phase : Phase} (free : phase.Free) (st : Wallet) : Held st phase := by
  cases phase <;> trivial

theorem nodup_update {Row Column : Type} {column : Row → Column} {update : Row → Row}
    {rows : List Row} (unique : (rows.map column).Nodup)
    (keeps : ∀ row, column (update row) = column row) :
    ((rows.map update).map column).Nodup := by
  grind

namespace Booked

variable {st : Wallet}

theorem new : Booked Wallet.new where
  ledger := .nil
  keyed := nodup_nil
  priced := by simp [Wallet.new]
  linked := by simp [Wallet.new]
  reserved := by simp [Wallet.new]
  paid := by simp [Wallet.new]
  sent := by simp [Wallet.new]
  single := nodup_nil

variable (booked : Booked st)
include booked

theorem upload {key : RequestKey} (requestCid : String) (partitionCost : Int)
    (fresh : ∀ row ∈ st.requests, row.key ≠ key) :
    Booked { st with
      requests := st.requests ++ [⟨key, requestCid, partitionCost, none, false⟩] } := by
  obtain ⟨ledger, keyed, priced, linked, reserved, paid, sent, single⟩ := booked
  -- no payment is for the new row, since the row of every payment is there already
  have older : ∀ payment ∈ st.payments,
      ∀ row ∈ st.requests ++ [⟨key, requestCid, partitionCost, none, false⟩],
        row.key = payment.request → row ∈ st.requests := by
    intro payment inPayments row member same
    rcases mem_append.mp member with inside | here
    · exact inside
    · cases mem_singleton.mp here
      obtain ⟨other, inRows, owner, -⟩ := priced payment inPayments
      exact absurd (owner.trans same.symm) (fresh other inRows)
  refine ⟨ledger, ?_, ?_, ?_, ?_, ?_, ?_, single⟩
  · grind
  · intro payment inPayments
    obtain ⟨row, inRows, rest⟩ := priced payment inPayments
    exact ⟨row, mem_append_left _ inRows, rest⟩
  · intro row member nonce carried
    rcases mem_append.mp member with inside | here
    · exact linked row inside nonce carried
    · cases mem_singleton.mp here
      cases carried
  · intro payment inPayments unused row member same
    exact reserved payment inPayments unused row (older payment inPayments row member same) same
  · intro payment inPayments consumed row member same
    exact paid payment inPayments consumed row (older payment inPayments row member same) same
  · intro row member marked
    rcases mem_append.mp member with inside | here
    · exact sent row inside marked
    · cases mem_singleton.mp here
      cases marked

theorem insertPayment {request : Request} {price : Nat}
    (member : request ∈ st.requests) (unsent : request.requestSent = false)
    (quoted : ∃ market ∈ st.quotes, price = requestPrice market request.partitionCost)
    (last : ∀ payment, lastPayment st.payments = some payment → payment.consumed = true) :
    Booked (st.insertPayment request price) := by
  have closed := booked.ledger.all_consumed last
  have numbered := booked.ledger.nextNonce_eq
  have amount : (lastPayment st.payments).elim 0 Payment.cumulativeAmount =
      st.payments.getLast?.elim 0 Payment.cumulativeAmount := by rw [booked.ledger.lastPayment_eq]
  obtain ⟨ledger, keyed, priced, linked, reserved, paid, sent, single⟩ := booked
  refine ⟨?_, ?_, ?_, ?_, ?_, ?_, ?_, ?_⟩ <;> simp only [Wallet.insertPayment]
  · refine .concat ledger closed numbered ?_
    grind
  · refine nodup_update keyed fun row => ?_
    split <;> rfl
  · intro payment inPayments
    rcases mem_append.mp inPayments with inside | here
    · grind
    · exact ⟨_, mem_map_of_mem member, by grind⟩
  · intro updated inRows nonce carried
    obtain ⟨row, inside, rfl⟩ := mem_map.mp inRows
    split at carried
    · exact ⟨_, mem_append_right _ (mem_singleton_self _), by grind⟩
    · grind
  · clear priced linked sent paid
    grind
  · clear priced linked sent reserved
    grind
  · clear priced linked paid reserved
    grind
  -- a consumed payment for the request would have marked it as sent
  · grind

theorem markConsumed (nonce : Nat) : Booked (st.markConsumed nonce) := by
  obtain ⟨ledger, keyed, priced, linked, reserved, paid, sent, single⟩ := booked
  refine ⟨ledger.consume nonce, ?_, ?_, ?_, ?_, ?_, ?_, ?_⟩ <;> simp only [Wallet.markConsumed]
  · refine nodup_update keyed fun row => ?_
    split <;> rfl
  · intro updated inPayments
    obtain ⟨payment, inside, rfl⟩ := mem_map.mp inPayments
    obtain ⟨row, inRows, rest⟩ := priced payment inside
    exact ⟨_, mem_map_of_mem inRows, by grind⟩
  · intro updated inRows number carried
    obtain ⟨row, inside, rfl⟩ := mem_map.mp inRows
    obtain ⟨payment, inPayments, rest⟩ := linked row inside number (by grind)
    exact ⟨_, mem_map_of_mem inPayments, by grind⟩
  · clear priced linked sent paid
    grind
  -- an unconsumed payment's own row carries its nonce, so it is marked with it
  · clear priced linked sent
    grind
  · intro changed inRows marked
    obtain ⟨row, inside, rfl⟩ := mem_map.mp inRows
    by_cases carried : row.paymentNonce = some nonce
    · obtain ⟨payment, inPayments, rest⟩ := linked row inside nonce carried
      exact ⟨_, mem_map_of_mem inPayments, by grind⟩
    · obtain ⟨payment, inPayments, rest⟩ := sent row inside (by grind)
      exact ⟨_, mem_map_of_mem inPayments, by grind⟩
  grind

theorem deletePayment (nonce : Nat) : Booked (st.deletePayment nonce) := by
  obtain ⟨ledger, keyed, priced, linked, reserved, paid, sent, single⟩ := booked
  refine ⟨?_, ?_, ?_, ?_, ?_, ?_, ?_, ?_⟩ <;> simp only [Wallet.deletePayment]
  · exact ledger.filter fun payment consumed => by simp [consumed]
  · refine nodup_update keyed fun row => ?_
    split <;> rfl
  · intro payment inPayments
    obtain ⟨row, inRows, rest⟩ := priced payment (mem_filter.mp inPayments).1
    exact ⟨_, mem_map_of_mem inRows, by grind⟩
  · clear priced reserved paid sent
    grind
  all_goals grind

theorem goto (phase : Phase) : Booked (st.goto phase) :=
  { booked with }

theorem accept (payment : Payment) (requestCid : String) : Booked (st.accept payment requestCid) :=
  { booked with }

theorem quote (market : PriceResponse) : Booked (st.quote market) := by
  refine { booked with priced := fun payment member => ?_ }
  obtain ⟨row, inside, same, earlier, quoted, priced⟩ := booked.priced payment member
  exact ⟨row, inside, same, earlier, mem_append_left _ quoted, priced⟩

theorem moved (held : Held st st.phase) {action : Action} {next : Wallet}
    (move : Moved st action next) : Booked next ∧ Held next next.phase := by
  cases move with
  | idle phase free => exact ⟨booked.goto phase, free.held _⟩
  | upload key requestCid partitionCost fresh =>
    refine ⟨booked.upload requestCid partitionCost fresh, ?_⟩
    revert held
    cases here : st.phase <;> simp only [Held] <;> try exact fun _ => trivial
    all_goals grind
  | pick request member unsent => exact ⟨booked.goto _, member, unsent⟩
  | price request market here =>
    rw [here] at held
    exact ⟨(booked.quote market).goto _, held.1, held.2, market,
      mem_append_right _ (mem_singleton_self _), rfl⟩
  | create request price phase free here closed =>
    rw [here] at held
    exact ⟨(booked.insertPayment held.1 held.2.1 held.2.2 closed).goto phase, free.held _⟩
  | send payment last | lookup payment row here member carried
  | retry payment requestCid attempt next here => exact ⟨booked.goto _, trivial⟩
  | accept payment requestCid attempt phase here after =>
    refine ⟨(booked.accept payment requestCid).goto phase, ?_⟩
    rcases after with rfl | rfl <;> trivial
  | exhaust payment requestCid attempt here unavailable out => exact ⟨booked.goto _, trivial⟩
  | mark payment phase free here =>
    exact ⟨(booked.markConsumed payment.nonce).goto phase, free.held _⟩
  | undo nonce phase free => exact ⟨(booked.deletePayment nonce).goto phase, free.held _⟩

end Booked

theorem booked_of_run {actions : List Action} {st : Wallet}
    (ran : run Wallet.step Wallet.new actions = some st) : Booked st := by
  have both := run_keeps (fun st _ _ (both : Booked st ∧ Held st st.phase) stepped =>
    both.1.moved both.2 (Wallet.step_moved stepped)) ⟨Booked.new, trivial⟩ ran
  exact both.1

def Delivered (st : Wallet) (payment : Payment) : Prop :=
  ∃ row ∈ st.requests, row.key = payment.request ∧
    ⟨row.requestCid, payment.nonce, payment.cumulativeAmount⟩ ∈ st.accepted

def Underway (st : Wallet) : Phase → Prop
  | .sending payment => payment ∈ st.payments
  | .posting payment requestCid _ => payment ∈ st.payments ∧
      ∃ row ∈ st.requests, row.key = payment.request ∧ row.requestCid = requestCid
  | .marking payment => payment ∈ st.payments ∧ Delivered st payment
  | _ => True

theorem Phase.Free.underway {phase : Phase} (free : phase.Free) (st : Wallet) :
    Underway st phase := by
  cases phase <;> trivial

structure Exact (st : Wallet) : Prop where
  delivered : ∀ payment ∈ st.payments, payment.consumed = true → Delivered st payment
  underway : Underway st st.phase

def Phase.attempt : Phase → Nat
  | .posting _ _ attempt => attempt
  | _ => 0

def Answered (st : Wallet) (action : Action) : Prop :=
  action = .answer .unavailable → st.phase.attempt + 1 < maxRetries

instance Answered.decidable (st : Wallet) (action : Action) : Decidable (Answered st action) :=
  inferInstanceAs (Decidable (_ → _))

theorem Delivered.update {st next : Wallet} {payment : Payment} {update : Request → Request}
    (delivered : Delivered st payment) (rows : next.requests = st.requests.map update)
    (keeps : ∀ row, (update row).key = row.key ∧ (update row).requestCid = row.requestCid)
    (accepted : next.accepted = st.accepted) : Delivered next payment := by
  grind [Delivered]

theorem Exact.moved {st next : Wallet} {action : Action} (exact : Exact st) (booked : Booked st)
    (answered : Answered st action) (move : Moved st action next) : Exact next := by
  have underway := exact.underway
  cases move with
  | idle phase free => exact ⟨exact.delivered, free.underway _⟩
  | upload key requestCid partitionCost fresh =>
    have kept {payment : Payment} (delivered : Delivered st payment) :
        Delivered { st with
          requests := st.requests ++ [⟨key, requestCid, partitionCost, none, false⟩] } payment := by
      obtain ⟨row, inside, rest⟩ := delivered
      exact ⟨row, mem_append_left _ inside, rest⟩
    refine ⟨fun payment member consumed => kept (exact.delivered payment member consumed), ?_⟩
    revert underway
    cases here : st.phase <;> simp only [Underway] <;> try exact fun _ => trivial
    all_goals grind
  | pick request member unsent | price request market here => exact ⟨exact.delivered, trivial⟩
  | create request price phase free here closed =>
    refine ⟨?_, free.underway _⟩
    intro payment member consumed
    rcases mem_append.mp member with inside | new
    · refine (exact.delivered payment inside consumed).update rfl (fun row => ?_) rfl
      split <;> exact ⟨rfl, rfl⟩
    grind
  | send payment last =>
    refine ⟨exact.delivered, ?_⟩
    exact argmax_mem last
  | lookup payment row here member carried =>
    rw [here] at underway
    obtain ⟨stored, inside, numbered, same⟩ := booked.linked row member payment.nonce carried
    obtain rfl := booked.ledger.eq_of_nonce inside underway numbered
    exact ⟨exact.delivered, underway, row, member, same.symm, rfl⟩
  | retry payment requestCid attempt next here =>
    rw [here] at underway
    exact ⟨exact.delivered, underway⟩
  | accept payment requestCid attempt phase here after =>
    rw [here] at underway
    obtain ⟨member, row, inside, same, rfl⟩ := underway
    have kept : ∀ other ∈ st.payments, other.consumed = true →
        Delivered ((st.accept payment row.requestCid).goto phase) other := by
      intro other inPayments consumed
      obtain ⟨carrier, inRows, key, arrived⟩ := exact.delivered other inPayments consumed
      exact ⟨carrier, inRows, key, mem_append_left _ arrived⟩
    refine ⟨kept, ?_⟩
    rcases after with rfl | rfl
    · exact ⟨member, row, inside, same, mem_append_right _ (mem_singleton_self _)⟩
    · trivial
  | exhaust payment requestCid attempt here unavailable out =>
    have left := answered unavailable
    rw [here] at left
    exact absurd left (Nat.not_lt.mpr out)
  | mark payment phase free here =>
    rw [here] at underway
    refine ⟨?_, free.underway _⟩
    intro updated member consumed
    obtain ⟨stored, inside, rfl⟩ := mem_map.mp member
    -- the payment of this number is the one that was sent
    have delivered : Delivered st stored := by
      by_cases own : stored.nonce = payment.nonce
      · rw [booked.ledger.eq_of_nonce inside underway.1 own]
        exact underway.2
      · rw [if_neg own] at consumed
        exact exact.delivered stored inside consumed
    have after : Delivered ((st.markConsumed payment.nonce).goto phase) stored := by
      refine delivered.update rfl (fun row => ?_) rfl
      split <;> exact ⟨rfl, rfl⟩
    split <;> exact after
  | undo nonce phase free =>
    refine ⟨?_, free.underway _⟩
    intro payment member consumed
    refine (exact.delivered payment (mem_filter.mp member).1 consumed).update rfl
      (fun row => ?_) rfl
    split <;> exact ⟨rfl, rfl⟩

theorem exact_of_run {actions : List Action} {st : Wallet}
    (under : RunsUnder Wallet.step Answered Wallet.new actions)
    (ran : run Wallet.step Wallet.new actions = some st) : Exact st := by
  have initial : Exact Wallet.new := ⟨by simp [Wallet.new], trivial⟩
  have all := run_invariant (fun st _ _ (all : (Booked st ∧ Held st st.phase) ∧ Exact st)
      answered stepped =>
    have move := Wallet.step_moved stepped
    And.intro (all.1.1.moved all.1.2 move) (all.2.moved all.1.1 answered move))
    ⟨⟨Booked.new, trivial⟩, initial⟩ under ran
  exact all.2

def Wallet.consumed (st : Wallet) : List Payment := st.payments.filter Payment.consumed

/-- In every run in which no send gets its last "unavailable", consumed payments and sent requests
belong together and were accepted, consumed payments are numbered without gaps and each adds the
price of its own request, and no two of them pay for one request. -/
theorem payments_exact (actions : List Action) (st : Wallet)
    (under : RunsUnder Wallet.step Answered Wallet.new actions)
    (ran : run Wallet.step Wallet.new actions = some st) :
    (∀ payment ∈ st.consumed, ∃ row ∈ st.requests,
      row.key = payment.request ∧ row.requestSent = true ∧
        ⟨row.requestCid, payment.nonce, payment.cumulativeAmount⟩ ∈ st.accepted) ∧
    (∀ row ∈ st.requests, row.requestSent = true → ∃ payment ∈ st.consumed,
      payment.request = row.key ∧
        ⟨row.requestCid, payment.nonce, payment.cumulativeAmount⟩ ∈ st.accepted) ∧
    (∀ index payment, st.consumed[index]? = some payment → payment.nonce = index ∧
      payment.cumulativeAmount = amountBefore st.consumed index + payment.price ∧
      ∃ row ∈ st.requests, row.key = payment.request ∧
        ∃ market ∈ st.quotes, payment.price = requestPrice market row.partitionCost) ∧
    (st.consumed.map Payment.request).Nodup := by
  have booked := booked_of_run ran
  have delivered := (exact_of_run under ran).delivered
  have mem_iff (payment : Payment) : payment ∈ st.consumed ↔
      payment ∈ st.payments ∧ payment.consumed = true := mem_filter
  refine ⟨?_, ?_, ?_, booked.single.sublist (filter_sublist.map _)⟩
  · intro payment member
    obtain ⟨inside, consumed⟩ := (mem_iff payment).mp member
    obtain ⟨row, inRows, same, arrived⟩ := delivered payment inside consumed
    exact ⟨row, inRows, same, booked.paid payment inside consumed row inRows same, arrived⟩
  · intro row inRows sent
    obtain ⟨payment, inside, consumed, same⟩ := booked.sent row inRows sent
    obtain ⟨carrier, inCarriers, key, arrived⟩ := delivered payment inside consumed
    -- a key has one row
    have own : carrier = row :=
      inj_on_of_nodup_map booked.keyed inCarriers inRows (key.trans same)
    exact ⟨payment, (mem_iff payment).mpr ⟨inside, consumed⟩, same, own ▸ arrived⟩
  · intro index payment here
    have ledger : Ledger st.consumed := booked.ledger.filter fun _ consumed => consumed
    have stored := ((mem_iff payment).mp (mem_of_getElem? here)).1
    exact ⟨(ledger.at_index here).1, (ledger.at_index here).2, booked.priced payment stored⟩

def firstSend : List Action :=
  [.upload ⟨1000, 7, "porep"⟩ "proof" 10, .run, .readLast true, .pick [1000] [] true,
    .price (some ⟨5, 1⟩) 6, .create true .committed, .reread true, .lookup true]

/-- A send that is refused is undone, and the next one is accepted after one "unavailable". -/
def secondSend : List Action :=
  firstSend ++ [.answer .rejected, .status (some ⟨false, 0⟩), .undo .committed, .readLast true,
    .pick [1000] [] true, .price (some ⟨5, 1⟩) 6, .create true .committed, .reread true,
    .lookup true, .answer .unavailable, .answer .accepted, .mark .committed]

theorem payments_exact_after_undo :
    let payment : Payment := ⟨0, 6000000000, true, ⟨1000, 7, "porep"⟩, 6000000000⟩
    let row : Request := ⟨⟨1000, 7, "porep"⟩, "proof", 10, some 0, true⟩
    ∃ st, run Wallet.step Wallet.new secondSend = some st ∧ st.consumed = [payment] ∧
      (∃ row ∈ st.requests, row.key = payment.request ∧ row.requestSent = true ∧
        ⟨row.requestCid, 0, 6000000000⟩ ∈ st.accepted) ∧
      (∃ payment ∈ st.consumed, payment.request = row.key ∧
        ⟨row.requestCid, payment.nonce, payment.cumulativeAmount⟩ ∈ st.accepted) ∧
      payment.cumulativeAmount = amountBefore st.consumed 0 + payment.price ∧
      (st.consumed.map Payment.request).Nodup := by
  obtain ⟨paid, sent, numbered, single⟩ := payments_exact secondSend _ (by decide +kernel) rfl
  exact ⟨_, rfl, rfl, paid _ mem_cons_self, sent _ mem_cons_self rfl, (numbered 0 _ rfl).2.1, single⟩

/-- After five hundred times "unavailable" the payment is consumed and the request sent, though the
service accepted nothing. -/
theorem unavailable_payment_consumed :
    ∃ st, run Wallet.step Wallet.new
        (firstSend ++ replicate 500 (.answer .unavailable) ++ [.mark .committed]) = some st ∧
      (∃ payment ∈ st.payments, payment.consumed = true) ∧
      (∃ row ∈ st.requests, row.requestSent = true) ∧ st.accepted = [] :=
  ⟨⟨[⟨0, 6000000000, true, ⟨1000, 7, "porep"⟩, 6000000000⟩],
      [⟨⟨1000, 7, "porep"⟩, "proof", 10, some 0, true⟩], [], [⟨5, 1⟩], .top⟩,
    by decide +kernel, by decide, by decide, rfl⟩

/-- Whatever the service answers and whichever transactions fail, no request is paid for twice, and
only the last payment can be open. -/
theorem wallet_ledger_kept {actions : List Action} {st : Wallet}
    (ran : run Wallet.step Wallet.new actions = some st) :
    (st.payments.map Payment.request).Nodup ∧
      ∀ index payment, st.payments[index]? = some payment → payment.nonce = index ∧
        payment.cumulativeAmount = amountBefore st.payments index + payment.price ∧
        (payment.consumed = false → index + 1 = st.payments.length) := by
  have booked := booked_of_run ran
  refine ⟨booked.single, fun index payment here => ?_⟩
  obtain ⟨nonce, amount⟩ := booked.ledger.at_index here
  refine ⟨nonce, amount, fun unconsumed => ?_⟩
  have ledger := booked.ledger
  generalize st.payments = payments at ledger here ⊢
  cases ledger with
  | nil => simp at here
  | concat rest closed => grind

theorem wallet_ledger_kept_open : ∃ st, run Wallet.step Wallet.new firstSend = some st ∧
    st.payments = [⟨0, 6000000000, false, ⟨1000, 7, "porep"⟩, 6000000000⟩] ∧
    (st.payments.map Payment.request).Nodup :=
  ⟨_, rfl, rfl, (wallet_ledger_kept (rfl : run _ _ firstSend = _)).1⟩

end Curio.ProofShare
