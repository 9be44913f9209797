import Curio.GoRuntime
import Curio.StepMachine

/-! `TaskClientSend` of `tasks/proofshare/task_client_send.go` for one wallet: a payment is made for
a request, sent to the proof service with it, and marked as consumed or undone.

Every step is one query, one transaction or one answer of the service, and a crash may follow any
of them; only one run is active. The tables hold the rows of the wallet, of requests whose data is
uploaded. What the signing of a voucher gives is left out. -/

namespace Curio.ProofShare

open GoRuntime

structure RequestKey where
  spID : Int
  sectorNum : Int
  requestType : String
  deriving DecidableEq

/-- `proofshare_client_requests` -/
structure Request where
  key : RequestKey
  requestCid : String
  partitionCost : Int
  paymentNonce : Option Nat := none
  requestSent : Bool := false
  deriving DecidableEq

/-- `proofshare_client_payments`, and what the table does not keep: the request that the payment was
made for, and the price of it. -/
structure Payment where
  nonce : Nat
  cumulativeAmount : Nat
  consumed : Bool
  request : RequestKey
  price : Nat
  deriving DecidableEq

def lastPayment (payments : List Payment) : Option Payment := payments.argmax Payment.nonce

def nextNonce (payments : List Payment) : Nat :=
  match payments.argmax Payment.nonce with
  | none => 0
  | some payment => payment.nonce + 1

structure PriceResponse where
  priceNfilBase : Int
  priceNfilServiceFee : Int
  deriving DecidableEq

def tokenAmountFromNfil (nfil : Int) : Nat := uint64 nfil * 1000000000

def requestPrice (market : PriceResponse) (partitionCost : Int) : Nat :=
  let basePrice := (int64 (market.priceNfilBase * partitionCost)).tdiv 10
  let serviceFee := (int64 (market.priceNfilServiceFee * partitionCost)).tdiv 10
  tokenAmountFromNfil (int64 (basePrice + serviceFee))

def applicableRequests (spIDs : List Int) (requests : List Request) : List Request :=
  requests.filter fun request => request.key.spID ∈ spIDs ∧ request.requestSent = false

/-- A snap request, or that of the sector with the oldest batch reference, or the first one. -/
def pickCandidateRequest (requests : List Request) (batchSectorRefs : List (Int × Int)) :
    Option Request :=
  match requests.find? fun request => request.key.requestType = "snap" with
  | some request => some request
  | none =>
    -- of several requests for a sector the map keeps the last one
    match batchSectorRefs.findSome? fun ref =>
      requests.reverse.find? fun request => (request.key.spID, request.key.sectorNum) = ref with
    | some request => some request
    | none => requests.head?

/-- What the service gets: `common.ProofRequest`. -/
structure ProofRequest where
  data : String
  paymentNonce : Nat
  paymentCumulativeAmount : Nat
  deriving DecidableEq

/-- An answer to `RequestProof`. Where there is no answer, the service may have accepted. -/
inductive Answer where
  | accepted
  | unavailable
  | rejected
  | failed (arrived : Bool)
  deriving DecidableEq

/-- How a transaction ends: what fails may have been committed. -/
inductive Outcome where
  | committed
  | rolledBack
  | doubtful
  deriving DecidableEq

def Outcome.happened : Outcome → Bool
  | .rolledBack => false
  | _ => true

/-- `ClientPaymentStatus` -/
structure PaymentStatus where
  found : Bool
  nonce : Int
  deriving DecidableEq

inductive Phase where
  | stopped
  | top
  | creating
  | picked (request : Request)
  | priced (request : Request) (price : Nat)
  | created
  | sending (payment : Payment)
  | posting (payment : Payment) (requestCid : String) (attempt : Nat)
  | marking (payment : Payment)
  | failed (payment : Payment)
  | undoing (payment : Payment)
  deriving DecidableEq

structure Wallet where
  payments : List Payment
  requests : List Request
  /-- What the service has accepted. -/
  accepted : List ProofRequest
  /-- The market's answers that requests were priced with. -/
  quotes : List PriceResponse
  phase : Phase
  deriving DecidableEq

def Wallet.new : Wallet := ⟨[], [], [], [], .stopped⟩

def maxRetries : Nat := 500

inductive Action where
  /-- The upload task has a new request. -/
  | upload (key : RequestKey) (requestCid : String) (partitionCost : Int)
  | run
  | crash
  | readLast (readable : Bool)
  | pick (spIDs : List Int) (batchSectorRefs : List (Int × Int)) (readable : Bool)
  | price (market : Option PriceResponse) (maxPerProof : Int)
  | create (signed : Bool) (outcome : Outcome)
  | reread (readable : Bool)
  | lookup (readable : Bool)
  | answer (answer : Answer)
  | mark (outcome : Outcome)
  | status (status : Option PaymentStatus)
  | undo (outcome : Outcome)
  deriving DecidableEq

namespace Wallet

def insertPayment (st : Wallet) (request : Request) (price : Nat) : Wallet :=
  let nonce := nextNonce st.payments
  let cumulativeAmount := match lastPayment st.payments with
    | none => 0
    | some payment => payment.cumulativeAmount
  { st with
    payments := st.payments ++ [⟨nonce, cumulativeAmount + price, false, request.key, price⟩]
    requests := st.requests.map fun row =>
      if row.key = request.key then { row with paymentNonce := some nonce } else row }

def markConsumed (st : Wallet) (nonce : Nat) : Wallet :=
  { st with
    payments := st.payments.map fun payment =>
      if payment.nonce = nonce then { payment with consumed := true } else payment
    requests := st.requests.map fun row =>
      if row.paymentNonce = some nonce then { row with requestSent := true } else row }

def deletePayment (st : Wallet) (nonce : Nat) : Wallet :=
  { st with
    payments := st.payments.filter fun payment => ¬(payment.nonce = nonce ∧ payment.consumed = false)
    requests := st.requests.map fun row =>
      if row.paymentNonce = some nonce then { row with paymentNonce := none } else row }

def commit (st : Wallet) (outcome : Outcome) (change : Wallet → Wallet) : Wallet :=
  if outcome.happened then change st else st

def goto (st : Wallet) (phase : Phase) : Wallet := { st with phase := phase }

def accept (st : Wallet) (payment : Payment) (requestCid : String) : Wallet :=
  { st with
    accepted := st.accepted ++ [⟨requestCid, payment.nonce, payment.cumulativeAmount⟩] }

def quote (st : Wallet) (market : PriceResponse) : Wallet :=
  { st with quotes := st.quotes ++ [market] }

def step (st : Wallet) : Action → Option Wallet
  | .upload key requestCid partitionCost =>
    if st.requests.any fun row => row.key = key then none
    else some { st with requests := st.requests ++ [⟨key, requestCid, partitionCost, none, false⟩] }
  | .run => if st.phase = .stopped then some (st.goto .top) else none
  | .crash => some (st.goto .stopped)
  | .readLast readable =>
    if st.phase = .top then
      if readable = false then some (st.goto .stopped)
      else
        match lastPayment st.payments with
        | none => some (st.goto .creating)
        | some payment =>
          if payment.consumed then some (st.goto .creating)
          else some (st.goto (.sending payment))
    else none
  | .pick spIDs batchSectorRefs readable =>
    if st.phase = .creating then
      if readable = false then some (st.goto .stopped)
      else
        match pickCandidateRequest (applicableRequests spIDs st.requests) batchSectorRefs with
        | none => some (st.goto .top)
        | some request => some (st.goto (.picked request))
    else none
  | .price market maxPerProof =>
    match st.phase, market with
    | .picked _, none => some (st.goto .stopped)
    | .picked request, some market =>
      if int64 (market.priceNfilBase + market.priceNfilServiceFee) > maxPerProof then
        some (st.goto .stopped)
      else
        some ((st.quote market).goto (.priced request (requestPrice market request.partitionCost)))
    | _, _ => none
  | .create signed outcome =>
    match st.phase with
    | .priced request price =>
      if (lastPayment st.payments).any fun payment => payment.consumed = false then
        some (st.goto .stopped)
      else if signed = false then some (st.goto .stopped)
      else
        some ((st.commit outcome fun st => st.insertPayment request price).goto
          (if outcome = .committed then .created else .stopped))
    | _ => none
  | .reread readable =>
    if st.phase = .created then
      if readable = false then some (st.goto .stopped)
      else (lastPayment st.payments).map fun payment => st.goto (.sending payment)
    else none
  | .lookup readable =>
    match st.phase with
    | .sending payment =>
      if readable = false then some (st.goto (.failed payment))
      else
        match st.requests.find? fun row => row.paymentNonce = some payment.nonce with
        | none => some (st.goto (.failed payment))
        | some row => some (st.goto (.posting payment row.requestCid 0))
    | _ => none
  | .answer answer =>
    match st.phase with
    | .posting payment requestCid attempt =>
      match answer with
      | .accepted => some ((st.accept payment requestCid).goto (.marking payment))
      | .unavailable =>
        if attempt + 1 < maxRetries then
          some (st.goto (.posting payment requestCid (attempt + 1)))
        else some (st.goto (.marking payment))
      | .rejected => some (st.goto (.failed payment))
      | .failed arrived =>
        some ((if arrived then st.accept payment requestCid else st).goto (.failed payment))
    | _ => none
  | .mark outcome =>
    match st.phase with
    | .marking payment =>
      some ((st.commit outcome fun st => st.markConsumed payment.nonce).goto
        (if outcome = .committed then .top else .failed payment))
    | _ => none
  | .status status =>
    match st.phase, status with
    | .failed _, none => some (st.goto .top)
    | .failed payment, some status =>
      if status.nonce < payment.nonce ∨ status.found = false then
        some (st.goto (.undoing payment))
      else some (st.goto .top)
    | _, _ => none
  | .undo outcome =>
    match st.phase with
    | .undoing payment =>
      some ((st.commit outcome fun st => st.deletePayment payment.nonce).goto .top)
    | _ => none

end Wallet

end Curio.ProofShare
