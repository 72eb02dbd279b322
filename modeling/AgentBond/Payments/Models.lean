import AgentBond.Foundation.Json

/-! # Payment models

The messages of the paid-demo flow, the challenges that are issued for payments
and the bindings under which they are settled.
-/

namespace AgentBond.Payments

open Foundation

def x402Version : UInt32 := 2
def schemeExact : Text := "exact".toList

/-- Solana legacy transaction serialized size upper bound. -/
def maxSolanaTxBytes : ℕ := 1232

structure ResourceInfo where
  url : Text
  description : Text
  mimeType : Text
  deriving DecidableEq

structure SvmExactExtra where
  feePayer : Text
  memo : Option Text
  recentBlockhash : Option Text
  lastValidBlockHeight : Option UInt64
  deriving DecidableEq

structure PaymentRequirements where
  scheme : Text
  network : Text
  amount : Text
  asset : Text
  payTo : Text
  maxTimeoutSeconds : UInt64
  extra : SvmExactExtra
  deriving DecidableEq

structure PaymentRequired where
  x402Version : UInt32
  error : Option Text
  resource : ResourceInfo
  accepts : List PaymentRequirements
  deriving DecidableEq

structure ExactPayloadBody where
  transaction : Text
  deriving DecidableEq

structure PaymentPayload where
  x402Version : UInt32
  resource : ResourceInfo
  accepted : PaymentRequirements
  payload : ExactPayloadBody
  extensions : List (Text × Json)

structure VerifyResponse where
  isValid : Bool
  invalidReason : Option Text
  payer : Option Text
  deriving DecidableEq

structure SettleResponse where
  success : Bool
  errorReason : Option Text
  transaction : Option Text
  network : Option Text
  payer : Option Text
  deriving DecidableEq

structure X402ResourceConfig where
  network : Text
  asset : Text
  payTo : Text
  feePayer : Text
  amount : Text
  maxTimeoutSeconds : UInt64
  resourceUrl : Text
  description : Text
  serviceId : Text
  deriving DecidableEq

structure PaymentChallenge where
  memo : Text
  serviceId : Text
  resourceUrl : Text
  description : Text
  merchant : Text
  asset : Text
  amount : Text
  network : Text
  feePayer : Text
  inputDigest : Text
  issuedAt : Int64
  expiresAt : Int64
  maxTimeoutSeconds : UInt64
  deriving DecidableEq

structure PaidDemoResult where
  body : Json
  paymentResponseHeader : Text

structure SettlementBinding where
  serviceId : Text
  resourceUrl : Text
  inputDigest : Text
  challengeMemo : Text
  deriving DecidableEq

/-- A random token; none is drawn twice. -/
structure LeaseToken where
  uuid : ℕ
  deriving DecidableEq

inductive BeginOutcome
  | cached (result : PaidDemoResult)
  | acquired (lease : LeaseToken)
  | recoveredStale (lease : LeaseToken)

inductive PaymentError
  | missingPayment | invalidBase64 | oversizedHeader | invalidJson | wrongVersion | wrongScheme
  | wrongNetwork | wrongAsset | wrongAmount | wrongRecipient | wrongFeePayer | expired
  | unsupportedExtension | invalidChallenge | challengeExpired | invalidTransaction
  | settlementInProgress | bindingMismatch | leaseMismatch
  | internal (message : String)
  | verifyRejected | verifyTimeout | settleRejected | settleTimeout
  | facilitator (message : String)
  | config (message : String)
  deriving DecidableEq

/-- An error of the database; its message is not modelled. -/
def databaseError : PaymentError := .internal "database error"

abbrev Paid (α : Type) := Except PaymentError α

/-- The clock counts microseconds. -/
def seconds (n : ℕ) : ℕ := n * 1000000

end AgentBond.Payments
