import AgentBond.Foundation.Interaction
import AgentBond.Payments.Calls
import AgentBond.Payments.Challenges
import AgentBond.Payments.Validate

/-! # The paid resource

A request without a payment is told what to pay. A payment is validated against
its challenge, its transaction is leased in the settlement store, the
facilitator verifies and settles it, and the result is stored and delivered. A
request that gives up gives its lease back.
-/

namespace AgentBond.Payments

open Foundation

/-- What the facilitator is asked to verify, and then to settle. -/
structure VerifyRequest where
  x402Version : UInt32
  paymentPayload : PaymentPayload
  paymentRequirements : PaymentRequirements

/-- The calls of a request: on the challenge store, on the settlement store and on the
facilitator. -/
inductive Ask
  | issue (cfg : X402ResourceConfig) (resource : ResourceInfo) (inputDigest : Text)
      (issuedAt : Int64)
  | getValid (memo : Text) (now : Int64)
  | begin (txDigest : Text) (binding : SettlementBinding)
  | complete (txDigest : Text) (binding : SettlementBinding) (lease : LeaseToken)
      (result : PaidDemoResult)
  | fail (txDigest : Text) (binding : SettlementBinding) (lease : LeaseToken)
  | verify (request : VerifyRequest)
  | settle (request : VerifyRequest)

@[reducible] def Ask.Reply : Ask → Type
  | issue .. => Paid (PaymentRequirements × PaymentChallenge)
  | getValid .. => Paid PaymentChallenge
  | begin .. => Paid BeginOutcome
  | complete .. | fail .. => Paid Unit
  | verify _ => Paid VerifyResponse
  | settle _ => Paid SettleResponse

/-- Calls on the facilitator go over the network. -/
def Ask.Remote : Ask → Prop
  | verify _ | settle _ => True
  | _ => False

/-- A paid result, the header that says what to pay, or an error. -/
abbrev Outcome := Paid (Except Text PaidDemoResult)

abbrev Program := Prog Ask Ask.Reply Outcome

abbrev Conversation := List (Event Ask Ask.Reply)

/-- The arguments of a request. -/
structure Order where
  cfg : X402ResourceConfig
  paymentHeader : Option Text
  input : Json
  nowUnix : Int64

/-- A payment whose transaction has been read. -/
structure Payment where
  order : Order
  payload : PaymentPayload
  challenge : PaymentChallenge
  tx : Text

section Requests

variable (L : Libraries)

def inputDigest (input : Json) : Text := Text.hex (L.sha256 (Text.utf8 input.write)).toList

def txDigest (transaction : Text) : Text := Text.hex (L.sha256 (Text.utf8 transaction)).toList

/-- The resource that is paid for. -/
def demoBody (input : Json) : Json := .object
  [("echo".toList, input), ("input_sha256".toList, .string (inputDigest L input)),
    ("note".toList, .string "deterministic paid demo resource".toList),
    ("service".toList, .string "agentbond-x402-demo".toList)]

def Order.resource (o : Order) : ResourceInfo :=
  ⟨o.cfg.resourceUrl, o.cfg.description, applicationJson⟩

def Payment.digestKey (p : Payment) : Text := txDigest L p.tx

def Payment.binding (p : Payment) : SettlementBinding where
  serviceId := p.order.cfg.serviceId
  resourceUrl := p.order.cfg.resourceUrl
  inputDigest := inputDigest L p.order.input
  challengeMemo := p.challenge.memo

def Payment.request (p : Payment) : VerifyRequest where
  x402Version := x402Version
  paymentPayload := p.payload
  paymentRequirements := expectedRequirements p.challenge

/-- Give the lease back, whether that succeeds or not. -/
def giveUp (p : Payment) (lease : LeaseToken) (e : PaymentError) : Program :=
  .call (.fail (p.digestKey L) (p.binding L) lease) fun _ => .done (.error e)

/-- The facilitator has settled the payment. -/
def deliver (p : Payment) (lease : LeaseToken) (settle : SettleResponse) : Program :=
  match encodePaymentResponseHeader settle with
  | .error e => .done (.error e)
  | .ok responseHeader =>
    let result := { body := demoBody L p.order.input, paymentResponseHeader := responseHeader }
    .call (.complete (p.digestKey L) (p.binding L) lease result) fun
      | .error e => .done (.error e)
      | .ok () => .done (.ok (.ok result))

def settlePayment (p : Payment) (lease : LeaseToken) : Program :=
  .call (.settle p.request) fun
    | .error e => giveUp L p lease e
    | .ok settle =>
      if settle.success then deliver L p lease settle else giveUp L p lease .settleRejected

def verifyPayment (p : Payment) (lease : LeaseToken) : Program :=
  .call (.verify p.request) fun
    | .error e => giveUp L p lease e
    | .ok verify =>
      if verify.isValid then settlePayment L p lease else giveUp L p lease .verifyRejected

def beginPayment (p : Payment) : Program :=
  .call (.begin (p.digestKey L) (p.binding L)) fun
    | .error e => .done (.error e)
    | .ok (.cached cached) => .done (.ok (.ok cached))
    | .ok (.acquired lease) | .ok (.recoveredStale lease) => verifyPayment L p lease

/-- A request without a payment. -/
def requirePayment (o : Order) : Program :=
  .call (.issue o.cfg o.resource (inputDigest L o.input) o.nowUnix) fun
    | .error e => .done (.error e)
    | .ok (requirements, _) =>
      match encodePaymentRequiredHeader
        { x402Version := x402Version, error := some "PAYMENT-SIGNATURE header is required".toList
          resource := o.resource, accepts := [requirements] } with
      | .error e => .done (.error e)
      | .ok encoded => .done (.ok (.error encoded))

def invokePaidDemo (o : Order) : Program :=
  match o.paymentHeader with
  | none => requirePayment L o
  | some header =>
    match decodePaymentSignatureHeader L header with
    | .error e => .done (.error e)
    | .ok payload =>
      match payload.accepted.extra.memo with
      | none => .done (.error .invalidChallenge)
      | some memo =>
        .call (.getValid memo o.nowUnix) fun
          | .error e => .done (.error e)
          | .ok challenge =>
            match validatePaymentPayload payload
              (expectedRequirements challenge) challenge o.nowUnix
              (inputDigest L o.input) with
            | .error e => .done (.error e)
            | .ok tx => beginPayment L ⟨o, payload, challenge, tx⟩

end Requests

end AgentBond.Payments
