import Curio.Contract
import Curio.StepMachine

/-! The payment router `_Router.sol`: clients deposit, the service redeems their vouchers into its
pool, and providers redeem the service's vouchers from it. -/

namespace Curio.ProofShare

open Contract
open GoRuntime (Bytes)

abbrev ActorID := Fin (2 ^ 64)

scoped instance uint64Range : NeZero (2 ^ 64) := ⟨by decide⟩

scoped instance uint160Range : NeZero (2 ^ 160) := ⟨by decide⟩

scoped instance uint256Range : NeZero (2 ^ 256) := ⟨by decide⟩

structure WithdrawRequest where
  amount : Nat
  timestamp : Nat
  deriving DecidableEq

/-- What `delete` leaves. -/
def WithdrawRequest.none : WithdrawRequest := ⟨0, 0⟩

inductive Event where
  | deposit (clientID : ActorID) (amount : Nat)
  | clientVoucherRedeemed (clientID : ActorID) (cumulativeAmount : Nat) (nonce : Nat)
  | providerVoucherRedeemed (providerID : ActorID) (cumulativeAmount : Nat) (nonce : Nat)
  | serviceDeposit (amount : Nat)
  | clientWithdrawalInitiated (clientID : ActorID) (amount readyTime : Nat)
  | clientWithdrawalCompleted (clientID : ActorID) (amount : Nat)
  | clientWithdrawalCanceled (clientID : ActorID) (amount : Nat)
  | serviceWithdrawalInitiated (amount readyTime : Nat)
  | serviceWithdrawalCompleted (amount : Nat)
  | serviceWithdrawalCanceled (amount : Nat)
  | serviceActorProposed (newServiceActor : ActorID) (readyTime : Nat)
  | serviceActorAccepted (newServiceActor : ActorID)
  deriving DecidableEq

inductive Payee where
  | provider (providerID : ActorID)
  | client (clientID : ActorID)
  | service (serviceActor : ActorID)
  deriving DecidableEq

def Payee.actor : Payee → ActorID
  | .provider actor | .client actor | .service actor => actor

/-- The contract's storage, and of the chain what concerns it: its own address and actor, its FIL
balance, its sends and events, and which messages actors have signed. -/
structure Router where
  address : Fin (2 ^ 160)
  self : ActorID
  serviceActor : ActorID
  dao : ActorID
  proposedServiceActor : ActorID
  nextServiceActorTimestamp : Nat
  clientBalance : ActorID → Nat
  clientVoucherRedeemed : ActorID → Nat
  clientLastNonce : ActorID → Nat
  servicePool : Nat
  providerVoucherRedeemed : ActorID → Nat
  providerLastNonce : ActorID → Nat
  clientWithdrawRequests : ActorID → WithdrawRequest
  serviceWithdrawRequest : WithdrawRequest
  balance : Nat
  sends : List (Payee × Nat)
  events : List Event
  signed : List (ActorID × Bytes)

def withdrawWindow : Nat := 4 * 60 * 60

def serviceActorDelay : Nat := 2 * 24 * 60 * 60

def dstClientVoucher : Nat := 0xc896443a8cbf4cb49ec50beef800b5b2a3764c14b7c5454e8248e1f195b1c000

def dstProviderVoucher : Nat := 0xc896443a8cbf4cb49ec50beef800b5b2a3764c14b7c5454e8248e1f195b1c001

/-- What a call comes with. `delivers` says whether the receiver of a send takes it. -/
structure Msg where
  sender : Option ActorID
  value : Nat
  timestamp : Nat
  delivers : Bool
  deriving DecidableEq

namespace Router

/-- The constructor. The balance may be positive before it runs. -/
def deploy (address : Fin (2 ^ 160)) (self serviceActor dao : ActorID) (balance : Nat) :
    Reverting Router := do
  require (0 < serviceActor.val) "Invalid service actor"
  require (0 < dao.val) "Invalid dao"
  pure ⟨address, self, serviceActor, dao, 0, 0, fun _ => 0, fun _ => 0, fun _ => 0, 0, fun _ => 0,
    fun _ => 0, fun _ => .none, .none, balance, [], [], []⟩

variable (router : Router) (msg : Msg)

def emit (event : Event) : Router := { router with events := router.events ++ [event] }

def clientVoucher (address : Fin (2 ^ 160)) (clientID serviceActor : ActorID)
    (cumulativeAmount : Fin (2 ^ 256)) (nonce : Fin (2 ^ 64)) : Bytes :=
  packed 32 dstClientVoucher ++ packed 20 address.val ++ packed 8 clientID.val ++
    packed 8 serviceActor.val ++ packed 32 cumulativeAmount.val ++ packed 8 nonce.val

def createClientVoucher (clientID : ActorID) (cumulativeAmount : Fin (2 ^ 256))
    (nonce : Fin (2 ^ 64)) : Bytes :=
  clientVoucher router.address clientID router.serviceActor cumulativeAmount nonce

def createProviderVoucher (providerID : ActorID) (cumulativeAmount : Fin (2 ^ 256))
    (nonce : Fin (2 ^ 64)) : Bytes :=
  packed 32 dstProviderVoucher ++ packed 20 router.address.val ++ packed 8 router.serviceActor.val ++
    packed 8 providerID.val ++ packed 32 cumulativeAmount.val ++ packed 8 nonce.val

/-- `AccountAPI.authenticateMessage` succeeds for what the actor signed; `valid` says whether the
signature of it is presented. -/
def authenticateMessage (actor : ActorID) (message : Bytes) (valid : Bool) : Prop :=
  valid = true ∧ (actor, message) ∈ router.signed

instance authenticateMessage.decidable (actor : ActorID) (message : Bytes) (valid : Bool) :
    Decidable (router.authenticateMessage actor message valid) :=
  inferInstanceAs (Decidable (_ ∧ _))

/-- `SendAPI.send`; what the contract sends to itself stays. -/
def send (payee : Payee) (amount : Nat) (message : String) : Reverting Router := do
  require (msg.delivers = true ∧ amount ≤ router.balance) message
  pure { router with
    balance := if payee.actor = router.self then router.balance else router.balance - amount
    sends := router.sends ++ [(payee, amount)] }

def proposeServiceActor (newServiceActor : ActorID) : Reverting Router := do
  require (msg.sender = some router.dao) "Only dao"
  require (0 < newServiceActor.val) "Invalid service actor"
  let readyTime ← checkedAdd msg.timestamp serviceActorDelay
  pure ({ router with
    proposedServiceActor := newServiceActor
    nextServiceActorTimestamp := readyTime }.emit (.serviceActorProposed newServiceActor readyTime))

def acceptServiceActor : Reverting Router := do
  require (0 < router.nextServiceActorTimestamp) "No proposal pending"
  require (router.nextServiceActorTimestamp ≤ msg.timestamp) "Delay not elapsed"
  let actorID ← expect msg.sender "Unable to resolve actor ID"
  require (router.proposedServiceActor = actorID) "Only proposed actor"
  pure ({ router with
    serviceActor := router.proposedServiceActor
    proposedServiceActor := 0
    nextServiceActorTimestamp := 0 }.emit (.serviceActorAccepted router.proposedServiceActor))

def deposit : Reverting Router := do
  require (0 < msg.value) "Deposit cannot be zero"
  let clientID ← expect msg.sender "Unable to resolve actor ID"
  let total ← checkedAdd (router.clientBalance clientID) msg.value
  pure ({ router with
    clientBalance := Function.update router.clientBalance clientID total
    balance := router.balance + msg.value }.emit (.deposit clientID msg.value))

def redeemClientVoucher (clientID : ActorID) (cumulativeAmount : Fin (2 ^ 256))
    (nonce : Fin (2 ^ 64)) (valid : Bool) : Reverting Router := do
  require (msg.sender = some router.serviceActor) "Only service may redeem vouchers"
  require (router.clientLastNonce clientID < nonce.val) "Voucher nonce too low"
  require (router.clientVoucherRedeemed clientID ≤ cumulativeAmount.val)
    "Cumulative amount decreased"
  let increment := cumulativeAmount.val - router.clientVoucherRedeemed clientID
  require (increment ≤ router.clientBalance clientID) "Insufficient client balance"
  require (router.authenticateMessage clientID
    (router.createClientVoucher clientID cumulativeAmount nonce) valid)
    "Client voucher signature invalid"
  let pool ← checkedAdd router.servicePool increment
  pure ({ router with
    clientBalance :=
      Function.update router.clientBalance clientID (router.clientBalance clientID - increment)
    clientVoucherRedeemed :=
      Function.update router.clientVoucherRedeemed clientID cumulativeAmount.val
    clientLastNonce := Function.update router.clientLastNonce clientID nonce.val
    servicePool := pool }.emit (.clientVoucherRedeemed clientID cumulativeAmount.val nonce.val))

def redeemProviderVoucher (providerID : ActorID) (cumulativeAmount : Fin (2 ^ 256))
    (nonce : Fin (2 ^ 64)) (valid : Bool) : Reverting Router := do
  require (router.providerLastNonce providerID < nonce.val) "Voucher nonce too low"
  require (router.providerVoucherRedeemed providerID ≤ cumulativeAmount.val)
    "Cumulative amount decreased"
  let increment := cumulativeAmount.val - router.providerVoucherRedeemed providerID
  require (increment ≤ router.servicePool) "Insufficient service pool amount"
  require (router.authenticateMessage router.serviceActor
    (router.createProviderVoucher providerID cumulativeAmount nonce) valid)
    "Service voucher signature invalid"
  let paid ← { router with
    servicePool := router.servicePool - increment
    providerVoucherRedeemed :=
      Function.update router.providerVoucherRedeemed providerID cumulativeAmount.val
    providerLastNonce := Function.update router.providerLastNonce providerID nonce.val }.send msg
      (.provider providerID) increment "Failed to send FIL to provider"
  pure (paid.emit (.providerVoucherRedeemed providerID cumulativeAmount.val nonce.val))

def serviceDeposit : Reverting Router := do
  require (msg.sender = some router.serviceActor) "Only service may deposit"
  require (0 < msg.value) "Must deposit non-zero amount"
  let pool ← checkedAdd router.servicePool msg.value
  pure ({ router with
    servicePool := pool
    balance := router.balance + msg.value }.emit (.serviceDeposit msg.value))

def initiateClientWithdrawal (amount : Nat) : Reverting Router := do
  let clientID ← expect msg.sender "Unable to resolve actor ID"
  require (0 < amount) "Withdrawal amount must be > 0"
  require (amount ≤ router.clientBalance clientID) "Insufficient client balance"
  let readyTime ← checkedAdd msg.timestamp withdrawWindow
  pure ({ router with
    clientWithdrawRequests :=
      Function.update router.clientWithdrawRequests clientID ⟨amount, msg.timestamp⟩ }.emit
        (.clientWithdrawalInitiated clientID amount readyTime))

def completeClientWithdrawal : Reverting Router := do
  let clientID ← expect msg.sender "Unable to resolve actor ID"
  let request := router.clientWithdrawRequests clientID
  require (0 < request.amount) "No pending withdrawal request"
  let readyTime ← checkedAdd request.timestamp withdrawWindow
  require (readyTime ≤ msg.timestamp) "Withdraw window not yet elapsed"
  require (request.amount ≤ router.clientBalance clientID) "Client balance insufficient"
  let paid ← { router with
    clientBalance :=
      Function.update router.clientBalance clientID (router.clientBalance clientID - request.amount)
    clientWithdrawRequests := Function.update router.clientWithdrawRequests clientID .none }.send
      msg (.client clientID) request.amount "Failed to send FIL to client"
  pure (paid.emit (.clientWithdrawalCompleted clientID request.amount))

def cancelClientWithdrawal : Reverting Router := do
  let clientID ← expect msg.sender "Unable to resolve actor ID"
  let request := router.clientWithdrawRequests clientID
  require (0 < request.amount) "No pending withdrawal request"
  pure ({ router with
    clientWithdrawRequests := Function.update router.clientWithdrawRequests clientID .none }.emit
      (.clientWithdrawalCanceled clientID request.amount))

def initiateServiceWithdrawal (amount : Nat) : Reverting Router := do
  require (msg.sender = some router.serviceActor) "Only service may initiate withdrawal"
  require (0 < amount) "Withdrawal amount must be > 0"
  require (amount ≤ router.servicePool) "Amount exceeds service pool"
  let readyTime ← checkedAdd msg.timestamp withdrawWindow
  pure ({ router with serviceWithdrawRequest := ⟨amount, msg.timestamp⟩ }.emit
    (.serviceWithdrawalInitiated amount readyTime))

def completeServiceWithdrawal : Reverting Router := do
  require (msg.sender = some router.serviceActor) "Only service may complete withdrawal"
  let request := router.serviceWithdrawRequest
  require (0 < request.amount) "No pending withdrawal request"
  let readyTime ← checkedAdd request.timestamp withdrawWindow
  require (readyTime ≤ msg.timestamp) "Withdraw window not yet elapsed"
  require (request.amount ≤ router.servicePool) "Service pool balance insufficient"
  let paid ← { router with
    servicePool := router.servicePool - request.amount
    serviceWithdrawRequest := .none }.send msg (.service router.serviceActor) request.amount
      "Failed to send FIL to service"
  pure (paid.emit (.serviceWithdrawalCompleted request.amount))

def cancelServiceWithdrawal : Reverting Router := do
  require (msg.sender = some router.serviceActor) "Only service may cancel withdrawal"
  let request := router.serviceWithdrawRequest
  require (0 < request.amount) "No pending withdrawal request"
  pure ({ router with serviceWithdrawRequest := .none }.emit
    (.serviceWithdrawalCanceled request.amount))

end Router

inductive Call where
  | proposeServiceActor (newServiceActor : ActorID)
  | acceptServiceActor
  | deposit
  | redeemClientVoucher (clientID : ActorID) (cumulativeAmount : Fin (2 ^ 256))
      (nonce : Fin (2 ^ 64)) (valid : Bool)
  | redeemProviderVoucher (providerID : ActorID) (cumulativeAmount : Fin (2 ^ 256))
      (nonce : Fin (2 ^ 64)) (valid : Bool)
  | serviceDeposit
  | initiateClientWithdrawal (amount : Nat)
  | completeClientWithdrawal
  | cancelClientWithdrawal
  | initiateServiceWithdrawal (amount : Nat)
  | completeServiceWithdrawal
  | cancelServiceWithdrawal
  deriving DecidableEq

def Call.payable : Call → Bool
  | .deposit | .serviceDeposit => true
  | _ => false

namespace Router

def call (router : Router) (msg : Msg) (call : Call) : Reverting Router := do
  require (call.payable = true ∨ msg.value = 0) ""
  match call with
  | .proposeServiceActor newServiceActor => router.proposeServiceActor msg newServiceActor
  | .acceptServiceActor => router.acceptServiceActor msg
  | .deposit => router.deposit msg
  | .redeemClientVoucher clientID cumulativeAmount nonce valid =>
    router.redeemClientVoucher msg clientID cumulativeAmount nonce valid
  | .redeemProviderVoucher providerID cumulativeAmount nonce valid =>
    router.redeemProviderVoucher msg providerID cumulativeAmount nonce valid
  | .serviceDeposit => router.serviceDeposit msg
  | .initiateClientWithdrawal amount => router.initiateClientWithdrawal msg amount
  | .completeClientWithdrawal => router.completeClientWithdrawal msg
  | .cancelClientWithdrawal => router.cancelClientWithdrawal msg
  | .initiateServiceWithdrawal amount => router.initiateServiceWithdrawal msg amount
  | .completeServiceWithdrawal => router.completeServiceWithdrawal msg
  | .cancelServiceWithdrawal => router.cancelServiceWithdrawal msg

/-- What happens on the chain: a call, a signature of an actor, or FIL that arrives without one. -/
inductive Happening where
  | call (msg : Msg) (call : Call)
  | sign (actor : ActorID) (message : Bytes)
  | receive (amount : Nat)
  deriving DecidableEq

def step (router : Router) : Happening → Option Router
  | .call msg called => (router.call msg called).toOption
  | .sign actor message => some { router with signed := router.signed ++ [(actor, message)] }
  | .receive amount => some { router with balance := router.balance + amount }

end Router

end Curio.ProofShare
