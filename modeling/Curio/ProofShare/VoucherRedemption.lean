import Mathlib
import Curio.ProofShare.PaymentsExact
import Curio.ProofShare.Solvency

/-! The vouchers that the send task stores, offered in order to the router and to the service's own
check `VerifyVoucherUpdate` of `lib/proofsvc/common/l1ops.go`. -/

namespace Curio.ProofShare

open GoRuntime Contract StepMachine List Finset

section Offers

structure ClientVoucher where
  nonce : Nat
  cumulativeAmount : Nat
  deriving DecidableEq

def verifyVoucherUpdate (best proposed : ClientVoucher) : Go Nat :=
  if proposed.nonce ≤ best.nonce then
    fail ("proposed voucher nonce is not higher than best accepted: " ++ toString proposed.nonce ++
      " <= " ++ toString best.nonce)
  else if proposed.cumulativeAmount ≤ best.cumulativeAmount then
    fail "proposed voucher amount is not greater than best accepted"
  else pure (proposed.cumulativeAmount - best.cumulativeAmount)

/-- The voucher of a payment, as `doCreatePayment` has it signed. -/
def Payment.voucherNonce (payment : Payment) : Fin (2 ^ 64) := Fin.ofNat _ payment.nonce

def Payment.voucherAmount (payment : Payment) : Fin (2 ^ 256) := Fin.ofNat _ payment.cumulativeAmount

def Payment.voucher (payment : Payment) : ClientVoucher :=
  ⟨payment.voucherNonce.val, payment.voucherAmount.val⟩

structure Settlement where
  router : Router
  best : ClientVoucher

variable (msg : Msg) (clientID : ActorID)

namespace Settlement

def redeem (settlement : Settlement) (payment : Payment) : Reverting Router :=
  settlement.router.redeemClientVoucher msg clientID payment.voucherAmount payment.voucherNonce true

/-- A refused voucher changes nothing. -/
def offer (settlement : Settlement) (payment : Payment) : Settlement where
  router := match settlement.redeem msg clientID payment with
    | .ok next => next
    | .error _ => settlement.router
  best := match verifyVoucherUpdate settlement.best payment.voucher with
    | .ok _ => payment.voucher
    | .error _ => settlement.best

def Redeemable (settlement : Settlement) (payment : Payment) : Prop :=
  (∃ next, settlement.redeem msg clientID payment = .ok next) ∧
    ∃ increment, verifyVoucherUpdate settlement.best payment.voucher = .ok increment

/-- The settlement after the vouchers of the payments were offered in order. -/
def settle (router : Router) (payments : List Payment) : Settlement :=
  payments.foldl (offer msg clientID) ⟨router, ⟨0, 0⟩⟩

end Settlement

/-- The service calls a router that has redeemed nothing of the client yet, the client's balance
covers the vouchers of the payments, and it signed them. -/
structure Funded (router : Router) (payments : List Payment) : Prop where
  solvent : ∃ paidIn, Solvent paidIn router
  supply : router.balance < wordLimit
  service : msg.sender = some router.serviceActor
  unused : router.clientLastNonce clientID = 0 ∧ router.clientVoucherRedeemed clientID = 0
  numbers : payments.length ≤ 2 ^ 64
  covers : ∀ payment ∈ payments, payment.cumulativeAmount ≤ router.clientBalance clientID
  signed : ∀ payment ∈ payments, (clientID, router.createClientVoucher clientID
    payment.voucherAmount payment.voucherNonce) ∈ router.signed

end Offers

theorem verifyVoucherUpdate_ok_iff {best proposed : ClientVoucher} :
    (∃ increment, verifyVoucherUpdate best proposed = .ok increment) ↔
      best.nonce < proposed.nonce ∧ best.cumulativeAmount < proposed.cumulativeAmount := by
  unfold verifyVoucherUpdate
  split
  · simp only [fail, reduceCtorEq, exists_false, false_iff]
    omega
  · split
    · simp only [fail, reduceCtorEq, exists_false, false_iff]
      omega
    · simp only [pure, Except.pure, Except.ok.injEq, exists_eq', true_iff]
      omega

namespace Settlement

variable {settlement : Settlement} {msg : Msg} {clientID : ActorID} {payment : Payment}

theorem offer_best_refused
    (refused : ¬ ∃ increment, verifyVoucherUpdate settlement.best payment.voucher = .ok increment) :
    (settlement.offer msg clientID payment).best = settlement.best := by
  grind [offer]

end Settlement

/-- What is redeemed before the voucher at a position: the first one is never taken. -/
def redeemedBefore (payments : List Payment) (index : Nat) : Nat :=
  if index ≤ 1 then 0 else amountBefore payments index

section Progress

variable {msg : Msg} {clientID : ActorID} {start : Router} {payments : List Payment}

/-- Where router and service are when the vouchers before a position were offered. -/
structure Progress (clientID : ActorID) (start : Router) (payments : List Payment) (index : Nat)
    (settlement : Settlement) : Prop where
  solvent : ∃ paidIn, Solvent paidIn settlement.router
  balance : settlement.router.balance = start.balance
  service : settlement.router.serviceActor = start.serviceActor
  address : settlement.router.address = start.address
  signed : settlement.router.signed = start.signed
  nonce : settlement.router.clientLastNonce clientID = index - 1
  redeemed : settlement.router.clientVoucherRedeemed clientID = redeemedBefore payments index
  rest : settlement.router.clientBalance clientID + redeemedBefore payments index =
    start.clientBalance clientID
  best : settlement.best.nonce ≤ index - 1 ∧
    settlement.best.cumulativeAmount = redeemedBefore payments index

variable {index : Nat} {payment : Payment} {settlement : Settlement}

theorem redeemedBefore_le (ledger : Ledger payments) (here : payments[index]? = some payment) :
    redeemedBefore payments index ≤ payment.cumulativeAmount := by
  have added := (ledger.at_index here).2
  unfold redeemedBefore
  split <;> omega

theorem redeemedBefore_succ (here : payments[index]? = some payment) (later : index ≠ 0) :
    redeemedBefore payments (index + 1) = payment.cumulativeAmount := by
  unfold redeemedBefore
  rw [if_neg (by omega), amountBefore, here, Option.elim_some]

namespace Funded

variable (funded : Funded msg clientID start payments) (ledger : Ledger payments)
include funded ledger

section Later

variable (here : payments[index]? = some payment)
include here

theorem voucherNonce_val : payment.voucherNonce.val = index := by
  have inside := (List.getElem?_eq_some_iff.mp here).1
  have bound := funded.numbers
  rw [Payment.voucherNonce, (ledger.at_index here).1]
  exact Nat.mod_eq_of_lt (by omega)

omit ledger in
theorem voucherAmount_val : payment.voucherAmount.val = payment.cumulativeAmount := by
  have covered := funded.covers payment (mem_of_getElem? here)
  have single := single_le_sum (fun client _ => Nat.zero_le (start.clientBalance client))
    (mem_univ clientID)
  obtain ⟨_, paidUp⟩ := funded.solvent
  have held := paidUp.covered
  have supply := funded.supply
  refine Nat.mod_eq_of_lt ?_
  change _ < wordLimit
  omega

variable (progress : Progress clientID start payments index settlement) (later : index ≠ 0)
include progress later

theorem redeem_ok :
    ∃ next, settlement.redeem msg clientID payment = .ok next ∧
      next.balance = settlement.router.balance ∧
      next.serviceActor = settlement.router.serviceActor ∧
      next.address = settlement.router.address ∧ next.signed = settlement.router.signed ∧
      next.clientLastNonce clientID = index ∧
      next.clientVoucherRedeemed clientID = payment.cumulativeAmount ∧
      next.clientBalance clientID + payment.cumulativeAmount = start.clientBalance clientID := by
  have member := mem_of_getElem? here
  have numbered := funded.voucherNonce_val ledger here
  have amount := funded.voucherAmount_val here
  have grows := redeemedBefore_le ledger here
  have covers := funded.covers payment member
  have rest := progress.rest
  have single := single_le_sum
    (fun client _ => Nat.zero_le (settlement.router.clientBalance client))
    (mem_univ clientID)
  obtain ⟨_, paidUp⟩ := progress.solvent
  have held := paidUp.covered
  have supply := funded.supply
  have same := progress.balance
  have authentic : settlement.router.authenticateMessage clientID
      (settlement.router.createClientVoucher clientID payment.voucherAmount payment.voucherNonce)
      true := by
    refine ⟨rfl, ?_⟩
    rw [progress.signed, Router.createClientVoucher, progress.address, progress.service]
    exact funded.signed payment member
  have caller : msg.sender = some settlement.router.serviceActor := by
    rw [progress.service]
    exact funded.service
  have nonce := progress.nonce
  have redeemed := progress.redeemed
  refine ⟨_, Router.redeemClientVoucher_eq_ok.mpr ⟨caller, by omega, by omega, by omega, authentic,
    by omega, rfl⟩, rfl, rfl, rfl, rfl, ?_, ?_, ?_⟩
  · simp only [Router.voucherRedeemed, Router.emit, Function.update_self, numbered]
  · simp only [Router.voucherRedeemed, Router.emit, Function.update_self, amount]
  · simp only [Router.voucherRedeemed, Router.emit, Function.update_self]
    omega

theorem better_iff :
    (∃ increment, verifyVoucherUpdate settlement.best payment.voucher = .ok increment) ↔
      redeemedBefore payments index < payment.cumulativeAmount := by
  rw [verifyVoucherUpdate_ok_iff]
  simp only [Payment.voucher, funded.voucherNonce_val ledger here, funded.voucherAmount_val here,
    progress.best.2]
  have below := progress.best.1
  grind

theorem progress_later :
    Progress clientID start payments (index + 1) (settlement.offer msg clientID payment) := by
  obtain ⟨next, returned, balance, service, address, signed, nonce, redeemed, rest⟩ :=
    funded.redeem_ok ledger here progress later
  have router : (settlement.offer msg clientID payment).router = next := by
    simp only [Settlement.offer, returned]
  have total := redeemedBefore_succ here later
  refine ⟨?_, ?_, ?_, ?_, ?_, ?_, ?_, ?_, ?_⟩ <;> (try rw [router])
  · exact progress.solvent.imp fun _ paidUp => paidUp.redeemClientVoucher returned
  · exact balance.trans progress.balance
  · exact service.trans progress.service
  · exact address.trans progress.address
  · exact signed.trans progress.signed
  · exact nonce
  · exact redeemed.trans total.symm
  · rw [total]
    exact rest
  · rw [total]
    have grows := redeemedBefore_le ledger here
    have better := funded.better_iff ledger here progress later
    by_cases more : redeemedBefore payments index < payment.cumulativeAmount
    · obtain ⟨increment, updated⟩ := better.mpr more
      simp only [Settlement.offer, updated]
      simp only [Payment.voucher, funded.voucherNonce_val ledger here,
        funded.voucherAmount_val here]
      exact ⟨le_rfl, trivial⟩
    -- a voucher over nothing more leaves the best one, which is for the same amount
    · rw [Settlement.offer_best_refused (fun ok => more (better.mp ok))]
      have earlier := progress.best
      omega

end Later

/-- The first voucher has nonce zero, which is not above the nonce of a client without one. -/
theorem first_refused (settlement : Settlement) (here : payments[0]? = some payment) :
    (¬ ∃ next, settlement.redeem msg clientID payment = .ok next) ∧
      ¬ ∃ increment, verifyVoucherUpdate settlement.best payment.voucher = .ok increment := by
  have numbered := funded.voucherNonce_val ledger here
  constructor
  · rintro ⟨next, returned⟩
    have above := (Router.redeemClientVoucher_eq_ok.mp returned).2.1
    omega
  · rw [verifyVoucherUpdate_ok_iff]
    rintro ⟨above, -⟩
    simp only [Payment.voucher, numbered] at above
    exact Nat.not_lt_zero _ above

theorem progress_first (progress : Progress clientID start payments 0 settlement)
    (here : payments[0]? = some payment) :
    Progress clientID start payments 1 (settlement.offer msg clientID payment) := by
  obtain ⟨refused, worse⟩ := funded.first_refused ledger settlement here
  have best : (settlement.offer msg clientID payment).best = settlement.best :=
    Settlement.offer_best_refused worse
  have same : settlement.offer msg clientID payment = settlement :=
    congrArg₂ Settlement.mk (by grind) best
  rw [same]
  exact { progress with }

theorem progress_settle (inside : index ≤ payments.length) :
    Progress clientID start payments index
      (Settlement.settle msg clientID start (payments.take index)) := by
  induction index with
  | zero =>
    refine ⟨funded.solvent, rfl, rfl, rfl, rfl, funded.unused.1, funded.unused.2, rfl, ?_⟩
    exact ⟨le_rfl, rfl⟩
  | succ index ih =>
    have here : payments[index]? = some payments[index] := getElem?_eq_getElem inside
    have before := ih (Nat.le_of_succ_le inside)
    rw [Settlement.settle, take_succ_eq_append_getElem inside, foldl_append]
    cases index with
    | zero => exact funded.progress_first ledger before here
    | succ index => exact funded.progress_later ledger here before (Nat.succ_ne_zero index)

theorem redeemable_iff (here : payments[index]? = some payment) :
    (Settlement.settle msg clientID start (payments.take index)).Redeemable msg clientID payment ↔
      index ≠ 0 ∧ redeemedBefore payments index < payment.cumulativeAmount := by
  have inside := (List.getElem?_eq_some_iff.mp here).1
  have progress := funded.progress_settle ledger inside.le
  cases index with
  | zero =>
    constructor
    · exact fun both => absurd both.1 (funded.first_refused ledger _ here).1
    · exact fun both => absurd rfl both.1
  | succ index =>
    have later := Nat.succ_ne_zero index
    obtain ⟨next, returned, -⟩ := funded.redeem_ok ledger here progress later
    rw [Settlement.Redeemable, funded.better_iff ledger here progress later]
    grind

end Funded

end Progress

def twoPayments : List Action :=
  firstSend ++ [.answer .accepted, .mark .committed, .upload ⟨1000, 8, "porep"⟩ "next" 10,
    .readLast true, .pick [1000] [] true, .price (some ⟨5, 1⟩) 6, .create true .committed]

def storedPayments : List Payment :=
  [⟨0, 6000000000, true, ⟨1000, 7, "porep"⟩, 6000000000⟩,
    ⟨1, 12000000000, false, ⟨1000, 8, "porep"⟩, 6000000000⟩]

def fundedRun : List Router.Happening :=
  .call ⟨some 5, 20000000000, 1, true⟩ .deposit :: storedPayments.map fun payment =>
    .sign 5 (Router.clientVoucher 9 5 3 payment.voucherAmount payment.voucherNonce)

theorem twoPayments_funded {start router : Router} (deployed : Router.deploy 9 8 3 4 0 = .ok start)
    (ran : run Router.step start fundedRun = some router) :
    Funded ⟨some 3, 0, 2, true⟩ 5 router storedPayments := by
  have solvent := solvent_of_run (Solvent.deploy deployed) ran
  cases deployed
  cases ran
  exact ⟨⟨_, solvent⟩, by decide +kernel, rfl, by decide +kernel, by decide +kernel, by decide +kernel,
    by decide +kernel⟩

/-- Whatever run stored the payments: a voucher, offered after those before it, is redeemable
exactly when it is not the first one and it is for more than what was redeemed before, which is so
when its own request has a price, or for the second one also when the first request had. -/
theorem voucher_redeemable_iff (actions : List Action) (st : Wallet) (msg : Msg)
    (clientID : ActorID) (router : Router) (ran : run Wallet.step Wallet.new actions = some st)
    (funded : Funded msg clientID router st.payments) (index : Nat) (payment : Payment)
    (here : st.payments[index]? = some payment) :
    (Settlement.settle msg clientID router (st.payments.take index)).Redeemable msg clientID
        payment ↔
      index ≠ 0 ∧ (0 < payment.price ∨ index = 1 ∧ 0 < amountBefore st.payments 1) := by
  have ledger := (booked_of_run ran).ledger
  have added := (ledger.at_index here).2
  rw [funded.redeemable_iff ledger here, redeemedBefore]
  refine and_congr_right fun later => ?_
  by_cases second : index = 1
  · subst second
    rw [if_pos le_rfl]
    omega
  · rw [if_neg (by omega)]
    omega

theorem voucher_redeemable_second :
    ∃ st start router, run Wallet.step Wallet.new twoPayments = some st ∧
      Router.deploy 9 8 3 4 0 = .ok start ∧ run Router.step start fundedRun = some router ∧
      ∃ payment, st.payments[1]? = some payment ∧
        (Settlement.settle ⟨some 3, 0, 2, true⟩ 5 router (st.payments.take 1)).Redeemable
          ⟨some 3, 0, 2, true⟩ 5 payment :=
  ⟨_, _, _, rfl, rfl, rfl, _, rfl,
    (voucher_redeemable_iff twoPayments _ ⟨some 3, 0, 2, true⟩ 5 _ rfl
      (twoPayments_funded rfl rfl) 1 _ rfl).mpr (by decide +kernel)⟩

/-- The first voucher is refused by the router and by the service, though it is funded and
signed. -/
theorem first_voucher_refused :
    ∃ st start router, run Wallet.step Wallet.new twoPayments = some st ∧
      Router.deploy 9 8 3 4 0 = .ok start ∧ run Router.step start fundedRun = some router ∧
      Funded ⟨some 3, 0, 2, true⟩ 5 router st.payments ∧
      ∃ payment, st.payments[0]? = some payment ∧
        (Settlement.mk router ⟨0, 0⟩).redeem ⟨some 3, 0, 2, true⟩ 5 payment =
          .error "Voucher nonce too low" ∧
        verifyVoucherUpdate ⟨0, 0⟩ payment.voucher =
          fail "proposed voucher nonce is not higher than best accepted: 0 <= 0" :=
  ⟨_, _, _, rfl, rfl, rfl, twoPayments_funded rfl rfl, _, rfl, rfl, rfl⟩

end Curio.ProofShare
