import Curio.ProofShare.Router

/-! The router is solvent after every sequence of calls: it holds what it owes, each client's
deposits are accounted for, nothing is redeemed that was not signed, and each provider got what its
last voucher says. -/

namespace Curio.ProofShare

open Contract StepMachine List

section History

def depositIn (clientID : ActorID) : Router.Happening → Nat
  | .call msg .deposit => if msg.sender = some clientID then msg.value else 0
  | _ => 0

/-- What was sent along with the client's deposits. -/
def deposits (happenings : List Router.Happening) (clientID : ActorID) : Nat :=
  (happenings.map (depositIn clientID)).sum

def redeemedIn (providerID : ActorID) : Event → Option Nat
  | .providerVoucherRedeemed redeemer cumulativeAmount _ =>
    if redeemer = providerID then some cumulativeAmount else none
  | _ => none

def lastVoucher (events : List Event) (providerID : ActorID) : Nat :=
  ((events.filterMap (redeemedIn providerID)).getLast?).getD 0

def paymentTo (payee : Payee) (sent : Payee × Nat) : Nat := if sent.1 = payee then sent.2 else 0

def paidTo (sends : List (Payee × Nat)) (payee : Payee) : Nat :=
  (sends.map (paymentTo payee)).sum

theorem lastVoucher_concat (events : List Event) (event : Event) (providerID : ActorID) :
    lastVoucher (events ++ [event]) providerID =
      (redeemedIn providerID event).getD (lastVoucher events providerID) := by
  cases here : redeemedIn providerID event <;> simp [lastVoucher, here]

theorem paidTo_concat (sends : List (Payee × Nat)) (sent : Payee × Nat) (payee : Payee) :
    paidTo (sends ++ [sent]) payee = paidTo sends payee + paymentTo payee sent := by
  simp [paidTo]

end History

/-- The invariant, for what every client has deposited. -/
structure Solvent (paidIn : ActorID → Nat) (router : Router) : Prop where
  covered : ∑ clientID, router.clientBalance clientID + router.servicePool ≤ router.balance
  accounted : ∀ clientID, paidIn clientID =
    router.clientBalance clientID + router.clientVoucherRedeemed clientID +
      paidTo router.sends (.client clientID)
  authorised : ∀ clientID, router.clientVoucherRedeemed clientID = 0 ∨
    ∃ serviceActor cumulativeAmount nonce,
      cumulativeAmount.val = router.clientVoucherRedeemed clientID ∧
      (clientID, Router.clientVoucher router.address clientID serviceActor cumulativeAmount nonce) ∈
        router.signed
  paid : ∀ providerID,
    paidTo router.sends (.provider providerID) = router.providerVoucherRedeemed providerID
  recorded : ∀ providerID,
    lastVoucher router.events providerID = router.providerVoucherRedeemed providerID

variable {amount balance : Nat} {clientID : ActorID} {nonce : Fin (2 ^ 64)} {valid : Bool}

namespace Router

variable {router next : Router} {msg : Msg}

theorem send_bind_eq_ok {payee : Payee} {message : String} {rest : Router → Reverting Router} :
    (router.send msg payee amount message >>= rest) = .ok next ↔
      (msg.delivers = true ∧ amount ≤ router.balance) ∧
      rest { router with
        balance := if payee.actor = router.self then router.balance else router.balance - amount
        sends := router.sends ++ [(payee, amount)] } = .ok next := by
  rw [send, bind_assoc, require_bind_eq_ok]
  rfl

def voucherRedeemed (router : Router) (clientID : ActorID) (cumulativeAmount nonce : Nat) : Router :=
  let increment := cumulativeAmount - router.clientVoucherRedeemed clientID
  { router with
    clientBalance :=
      Function.update router.clientBalance clientID (router.clientBalance clientID - increment)
    clientVoucherRedeemed :=
      Function.update router.clientVoucherRedeemed clientID cumulativeAmount
    clientLastNonce := Function.update router.clientLastNonce clientID nonce
    servicePool := router.servicePool + increment }.emit
      (.clientVoucherRedeemed clientID cumulativeAmount nonce)

theorem redeemClientVoucher_eq_ok {cumulativeAmount : Fin (2 ^ 256)} :
    router.redeemClientVoucher msg clientID cumulativeAmount nonce valid = .ok next ↔
      msg.sender = some router.serviceActor ∧ router.clientLastNonce clientID < nonce.val ∧
      router.clientVoucherRedeemed clientID ≤ cumulativeAmount.val ∧
      cumulativeAmount.val - router.clientVoucherRedeemed clientID ≤ router.clientBalance clientID ∧
      router.authenticateMessage clientID
        (router.createClientVoucher clientID cumulativeAmount nonce) valid ∧
      router.servicePool + (cumulativeAmount.val - router.clientVoucherRedeemed clientID) <
        wordLimit ∧
      router.voucherRedeemed clientID cumulativeAmount.val nonce.val = next := by
  simp only [redeemClientVoucher, require_bind_eq_ok, checkedAdd_bind_eq_ok, pure, Except.pure,
    Except.ok.injEq, voucherRedeemed]

end Router

namespace Solvent

variable {paidIn : ActorID → Nat} {router next : Router} {msg : Msg}

theorem deploy {address : Fin (2 ^ 160)} {self serviceActor dao : ActorID}
    (deployed : Router.deploy address self serviceActor dao balance = .ok router) :
    Solvent (fun _ => 0) router := by
  simp only [Router.deploy, require_bind_eq_ok] at deployed
  obtain ⟨-, -, built⟩ := deployed
  cases built
  refine ⟨?_, fun _ => rfl, fun _ => .inl rfl, fun _ => rfl, fun _ => rfl⟩
  simp

section

variable (solvent : Solvent paidIn router)
include solvent

theorem emit {event : Event} (neutral : ∀ providerID, redeemedIn providerID event = none) :
    Solvent paidIn (router.emit event) := by
  refine { solvent with recorded := fun providerID => ?_ }
  rw [Router.emit, lastVoucher_concat, neutral providerID]
  exact solvent.recorded providerID

theorem proposeServiceActor {newServiceActor : ActorID}
    (called : router.proposeServiceActor msg newServiceActor = .ok next) : Solvent paidIn next := by
  simp only [Router.proposeServiceActor, require_bind_eq_ok, checkedAdd_bind_eq_ok] at called
  obtain ⟨-, -, -, done⟩ := called
  cases done
  refine Solvent.emit ?_ fun _ => rfl
  exact { solvent with }

theorem acceptServiceActor (called : router.acceptServiceActor msg = .ok next) :
    Solvent paidIn next := by
  simp only [Router.acceptServiceActor, require_bind_eq_ok, expect_bind_eq_ok] at called
  obtain ⟨-, -, actorID, -, -, done⟩ := called
  cases done
  refine Solvent.emit ?_ fun _ => rfl
  exact { solvent with }

theorem deposit (called : router.deposit msg = .ok next) :
    Solvent (fun clientID => paidIn clientID + depositIn clientID (.call msg .deposit)) next := by
  simp only [Router.deposit, require_bind_eq_ok, expect_bind_eq_ok, checkedAdd_bind_eq_ok] at called
  obtain ⟨-, clientID, sender, -, done⟩ := called
  cases done
  refine Solvent.emit ?_ fun _ => rfl
  refine { solvent with covered := ?_, accounted := ?_ }
  · have moved := sum_update router.clientBalance clientID
      (router.clientBalance clientID + msg.value)
    have before := solvent.covered
    simp only
    omega
  · intro other
    have before := solvent.accounted other
    grind [depositIn]

end

variable {cumulativeAmount : Fin (2 ^ 256)}

theorem redeemClientVoucher (solvent : Solvent paidIn router)
    (called : router.redeemClientVoucher msg clientID cumulativeAmount nonce valid = .ok next) :
    Solvent paidIn next := by
  obtain ⟨-, -, grows, enough, authentic, -, rfl⟩ := Router.redeemClientVoucher_eq_ok.mp called
  refine Solvent.emit ?_ fun _ => rfl
  refine { solvent with covered := ?_, accounted := ?_, authorised := ?_ }
  · have moved := sum_update router.clientBalance clientID (router.clientBalance clientID -
      (cumulativeAmount.val - router.clientVoucherRedeemed clientID))
    have before := solvent.covered
    simp only
    omega
  · intro other
    have before := solvent.accounted other
    grind
  · intro other
    by_cases own : other = clientID
    · grind [Router.authenticateMessage, Router.createClientVoucher]
    · simp only [Function.update_of_ne own]
      exact solvent.authorised other

theorem covered_after_send {owed : Nat} {toSelf : Prop} [Decidable toSelf]
    (before : owed + amount ≤ balance) :
    owed ≤ if toSelf then balance else balance - amount := by
  split <;> omega

variable (solvent : Solvent paidIn router)
include solvent

theorem redeemProviderVoucher {providerID : ActorID}
    (called : router.redeemProviderVoucher msg providerID cumulativeAmount nonce valid = .ok next) :
    Solvent paidIn next := by
  simp only [Router.redeemProviderVoucher, require_bind_eq_ok, Router.send_bind_eq_ok] at called
  obtain ⟨-, grows, enough, -, -, done⟩ := called
  cases done
  refine ⟨?_, ?_, solvent.authorised, ?_, ?_⟩
  · simp only [Router.emit]
    apply covered_after_send
    have before := solvent.covered
    omega
  · intro clientID
    simp only [Router.emit, paidTo_concat]
    exact solvent.accounted clientID
  · intro other
    have before := solvent.paid other
    simp only [Router.emit, paidTo_concat, paymentTo]
    grind
  · intro other
    simp only [Router.emit, lastVoucher_concat, redeemedIn]
    by_cases own : providerID = other
    · grind
    · rw [Function.update_of_ne (Ne.symm own), if_neg own]
      exact solvent.recorded other

theorem serviceDeposit (called : router.serviceDeposit msg = .ok next) : Solvent paidIn next := by
  simp only [Router.serviceDeposit, require_bind_eq_ok, checkedAdd_bind_eq_ok] at called
  obtain ⟨-, -, -, done⟩ := called
  cases done
  refine Solvent.emit ?_ fun _ => rfl
  refine { solvent with covered := ?_ }
  have before := solvent.covered
  simp only
  omega

theorem initiateClientWithdrawal (called : router.initiateClientWithdrawal msg amount = .ok next) :
    Solvent paidIn next := by
  simp only [Router.initiateClientWithdrawal, require_bind_eq_ok, expect_bind_eq_ok,
    checkedAdd_bind_eq_ok] at called
  obtain ⟨clientID, -, -, -, -, done⟩ := called
  cases done
  refine Solvent.emit ?_ fun _ => rfl
  exact { solvent with }

theorem completeClientWithdrawal (called : router.completeClientWithdrawal msg = .ok next) :
    Solvent paidIn next := by
  simp only [Router.completeClientWithdrawal, require_bind_eq_ok, expect_bind_eq_ok,
    checkedAdd_bind_eq_ok, Router.send_bind_eq_ok] at called
  obtain ⟨clientID, -, -, -, -, enough, -, done⟩ := called
  cases done
  refine Solvent.emit ?_ fun _ => rfl
  refine { solvent with covered := ?_, accounted := ?_, paid := ?_ }
  · simp only
    apply covered_after_send
    have moved := sum_update router.clientBalance clientID (router.clientBalance clientID -
      (router.clientWithdrawRequests clientID).amount)
    have before := solvent.covered
    omega
  · intro other
    have before := solvent.accounted other
    simp only [paidTo_concat, paymentTo]
    grind
  · intro providerID
    simp only [paidTo_concat]
    exact solvent.paid providerID

theorem cancelClientWithdrawal (called : router.cancelClientWithdrawal msg = .ok next) :
    Solvent paidIn next := by
  simp only [Router.cancelClientWithdrawal, require_bind_eq_ok, expect_bind_eq_ok] at called
  obtain ⟨clientID, -, -, done⟩ := called
  cases done
  refine Solvent.emit ?_ fun _ => rfl
  exact { solvent with }

theorem initiateServiceWithdrawal (called : router.initiateServiceWithdrawal msg amount = .ok next) :
    Solvent paidIn next := by
  simp only [Router.initiateServiceWithdrawal, require_bind_eq_ok, checkedAdd_bind_eq_ok] at called
  obtain ⟨-, -, -, -, done⟩ := called
  cases done
  refine Solvent.emit ?_ fun _ => rfl
  exact { solvent with }

theorem completeServiceWithdrawal (called : router.completeServiceWithdrawal msg = .ok next) :
    Solvent paidIn next := by
  simp only [Router.completeServiceWithdrawal, require_bind_eq_ok, checkedAdd_bind_eq_ok,
    Router.send_bind_eq_ok] at called
  obtain ⟨-, -, -, -, enough, -, done⟩ := called
  cases done
  refine Solvent.emit ?_ fun _ => rfl
  refine { solvent with covered := ?_, accounted := ?_, paid := ?_ }
  · simp only
    apply covered_after_send
    have before := solvent.covered
    omega
  · intro clientID
    simp only [paidTo_concat]
    exact solvent.accounted clientID
  · intro providerID
    simp only [paidTo_concat]
    exact solvent.paid providerID

theorem cancelServiceWithdrawal (called : router.cancelServiceWithdrawal msg = .ok next) :
    Solvent paidIn next := by
  simp only [Router.cancelServiceWithdrawal, require_bind_eq_ok] at called
  obtain ⟨-, -, done⟩ := called
  cases done
  refine Solvent.emit ?_ fun _ => rfl
  exact { solvent with }

theorem call {call : Call} (called : router.call msg call = .ok next) :
    Solvent (fun clientID => paidIn clientID + depositIn clientID (.call msg call)) next := by
  unfold Router.call at called
  rw [require_bind_eq_ok] at called
  have returned := called.2
  cases call with
  | proposeServiceActor newServiceActor => exact solvent.proposeServiceActor returned
  | acceptServiceActor => exact solvent.acceptServiceActor returned
  | deposit => exact solvent.deposit returned
  | redeemClientVoucher clientID cumulativeAmount nonce valid =>
    exact solvent.redeemClientVoucher returned
  | redeemProviderVoucher providerID cumulativeAmount nonce valid =>
    exact solvent.redeemProviderVoucher returned
  | serviceDeposit => exact solvent.serviceDeposit returned
  | initiateClientWithdrawal amount => exact solvent.initiateClientWithdrawal returned
  | completeClientWithdrawal => exact solvent.completeClientWithdrawal returned
  | cancelClientWithdrawal => exact solvent.cancelClientWithdrawal returned
  | initiateServiceWithdrawal amount => exact solvent.initiateServiceWithdrawal returned
  | completeServiceWithdrawal => exact solvent.completeServiceWithdrawal returned
  | cancelServiceWithdrawal => exact solvent.cancelServiceWithdrawal returned

theorem step {happening : Router.Happening} (stepped : router.step happening = some next) :
    Solvent (fun clientID => paidIn clientID + depositIn clientID happening) next := by
  cases happening with
  | call msg called =>
    simp only [Router.step] at stepped
    cases returned : router.call msg called with
    | error message => rw [returned] at stepped; cases stepped
    | ok result =>
      rw [returned] at stepped
      cases stepped
      exact solvent.call returned
  | sign actor message =>
    cases stepped
    refine { solvent with authorised := fun clientID => ?_ }
    rcases solvent.authorised clientID with nothing | ⟨service, amount, nonce, same, member⟩
    · exact .inl nothing
    · exact .inr ⟨service, amount, nonce, same, mem_append_left _ member⟩
  | receive amount =>
    cases stepped
    exact { solvent with covered := solvent.covered.trans (Nat.le_add_right _ _) }

end Solvent

theorem solvent_of_run {paidIn : ActorID → Nat} {start router : Router}
    {happenings : List Router.Happening} (solvent : Solvent paidIn start)
    (ran : run Router.step start happenings = some router) :
    Solvent (fun clientID => paidIn clientID + deposits happenings clientID) router := by
  induction happenings generalizing paidIn start with
  | nil =>
    cases ran
    exact solvent
  | cons happening rest ih =>
    obtain ⟨next, stepped, continued⟩ := (run_cons _).mp ran
    have final := ih (solvent.step stepped) continued
    simpa only [deposits, map_cons, sum_cons, Nat.add_assoc] using final

/-- From its deployment on, whatever calls are made, by whom and in which order, the router holds
the clients' balances and the pool; a client's deposits are its balance, what was redeemed and what
was sent back to it, and what was redeemed is within what it signed; a provider was sent in total
the cumulative amount of its last redeemed voucher. -/
theorem router_solvent (address : Fin (2 ^ 160)) (self serviceActor dao : ActorID) (balance : Nat)
    (start router : Router) (happenings : List Router.Happening)
    (deployed : Router.deploy address self serviceActor dao balance = .ok start)
    (ran : run Router.step start happenings = some router) :
    ∑ clientID, router.clientBalance clientID + router.servicePool ≤ router.balance ∧
    (∀ clientID, deposits happenings clientID =
        router.clientBalance clientID + router.clientVoucherRedeemed clientID +
          paidTo router.sends (.client clientID) ∧
      ∀ largest, (∀ serviceActor cumulativeAmount nonce,
          (clientID, Router.clientVoucher router.address clientID serviceActor cumulativeAmount
            nonce) ∈ router.signed → cumulativeAmount.val ≤ largest) →
        router.clientVoucherRedeemed clientID ≤ largest) ∧
    ∀ providerID,
      paidTo router.sends (.provider providerID) = lastVoucher router.events providerID := by
  have solvent := solvent_of_run (Solvent.deploy deployed) ran
  refine ⟨solvent.covered, ?_, ?_⟩
  · intro clientID
    refine ⟨(Nat.zero_add _).symm.trans (solvent.accounted clientID), ?_⟩
    intro largest bounded
    rcases solvent.authorised clientID with nothing | ⟨service, amount, nonce, same, member⟩
    · rw [nothing]
      exact Nat.zero_le _
    · rw [← same]
      exact bounded service amount nonce member
  · intro providerID
    rw [solvent.paid, solvent.recorded]

/-- Client 5 deposits and signs a voucher, service 3 redeems it and pays provider 7 from it, and the
client withdraws a part of the rest. -/
def paidRun : List Router.Happening :=
  [.call ⟨some 5, 100, 1, true⟩ .deposit,
    .sign 5 (Router.clientVoucher 9 5 3 40 1),
    .call ⟨some 3, 0, 2, true⟩ (.redeemClientVoucher 5 40 1 true),
    .sign 3 (packed 32 dstProviderVoucher ++ packed 20 9 ++ packed 8 3 ++ packed 8 7 ++
      packed 32 30 ++ packed 8 1),
    .call ⟨some 7, 0, 3, true⟩ (.redeemProviderVoucher 7 30 1 true),
    .call ⟨some 5, 0, 4, true⟩ (.initiateClientWithdrawal 20),
    .call ⟨some 5, 0, 14404, true⟩ .completeClientWithdrawal]

theorem router_solvent_paid :
    ∃ start router, Router.deploy 9 8 3 4 0 = .ok start ∧
      run Router.step start paidRun = some router ∧
      router.balance = 50 ∧ deposits paidRun 5 = 100 ∧
      100 = router.clientBalance 5 + router.clientVoucherRedeemed 5 +
        paidTo router.sends (.client 5) ∧
      paidTo router.sends (.provider 7) = 30 ∧
      paidTo router.sends (.provider 7) = lastVoucher router.events 7 :=
  have solvent := router_solvent 9 8 3 4 0 _ _ paidRun rfl rfl
  ⟨_, _, rfl, rfl, by decide +kernel, rfl, (solvent.2.1 5).1, by decide +kernel, solvent.2.2 7⟩

end Curio.ProofShare
