import AgentBond.Foundation.Checked
import AgentBond.Foundation.Encodings
import AgentBond.Payments.Models

/-! # Payment headers and their validation

A payment travels in a header, as JSON in base 64. It is accepted when it
answers the challenge that was issued for the same input in every field, before
the challenge expires.
-/

namespace AgentBond.Payments

open Foundation

/-- The libraries the payment flow calls: SHA-256, and the reader of payments in JSON. -/
structure Libraries where
  sha256 : List UInt8 → Bytes 32
  readPayload : List UInt8 → Option PaymentPayload

section Headers

def maxHeaderBytes : ℕ := 16 * 1024

/-- A member that is left out when there is nothing to write. -/
def optional (key : Text) (value : Option Json) : List (Text × Json) :=
  (value.map fun v => (key, v)).toList

def jsonNumber (n : UInt64) : Json := .number (.posInt n)

def ResourceInfo.toJson (r : ResourceInfo) : Json := .object
  [("url".toList, .string r.url), ("description".toList, .string r.description),
    ("mimeType".toList, .string r.mimeType)]

def SvmExactExtra.toJson (e : SvmExactExtra) : Json := .object
  ([("feePayer".toList, .string e.feePayer)] ++ optional "memo".toList (e.memo.map .string) ++
    optional "recentBlockhash".toList (e.recentBlockhash.map .string) ++
    optional "lastValidBlockHeight".toList (e.lastValidBlockHeight.map jsonNumber))

def PaymentRequirements.toJson (r : PaymentRequirements) : Json := .object
  [("scheme".toList, .string r.scheme), ("network".toList, .string r.network),
    ("amount".toList, .string r.amount), ("asset".toList, .string r.asset),
    ("payTo".toList, .string r.payTo),
    ("maxTimeoutSeconds".toList, jsonNumber r.maxTimeoutSeconds), ("extra".toList, r.extra.toJson)]

def PaymentRequired.toJson (r : PaymentRequired) : Json := .object
  ([("x402Version".toList, jsonNumber r.x402Version.toUInt64)] ++
    optional "error".toList (r.error.map .string) ++
    [("resource".toList, r.resource.toJson),
      ("accepts".toList, .array (r.accepts.map PaymentRequirements.toJson))])

def SettleResponse.toJson (r : SettleResponse) : Json := .object
  ([("success".toList, .bool r.success)] ++
    optional "errorReason".toList (r.errorReason.map .string) ++
    optional "transaction".toList (r.transaction.map .string) ++
    optional "network".toList (r.network.map .string) ++
    optional "payer".toList (r.payer.map .string))

def decodePaymentSignatureHeader (L : Libraries) (value : Text) : Paid PaymentPayload := do
  ensure (value.utf8Len ≤ maxHeaderBytes) .oversizedHeader
  let bytes ← okOr (Base64.decode value.trim) .invalidBase64
  ensure (bytes.length ≤ maxHeaderBytes) .oversizedHeader
  okOr (L.readPayload bytes) .invalidJson

def encodeB64Json (value : Json) : Paid Text :=
  let json := Text.utf8 value.write
  if maxHeaderBytes < json.length then .error .oversizedHeader else .ok (Base64.encode json)

def encodePaymentRequiredHeader (value : PaymentRequired) : Paid Text := encodeB64Json value.toJson

def encodePaymentResponseHeader (value : SettleResponse) : Paid Text := encodeB64Json value.toJson

end Headers

def applicationJson : Text := "application/json".toList

def validateRequirements (actual expected : PaymentRequirements) (challenge : PaymentChallenge)
    (nowUnix : Int64) : Paid Unit := do
  ensure (actual.scheme = expected.scheme ∧ actual.scheme = schemeExact) .wrongScheme
  ensure (actual.network = expected.network ∧ actual.network = challenge.network) .wrongNetwork
  ensure (actual.asset = expected.asset ∧ actual.asset = challenge.asset) .wrongAsset
  ensure (actual.amount = expected.amount ∧ actual.amount = challenge.amount) .wrongAmount
  ensure (actual.payTo = expected.payTo ∧ actual.payTo = challenge.merchant) .wrongRecipient
  ensure (actual.maxTimeoutSeconds = expected.maxTimeoutSeconds) .invalidChallenge
  ensure (actual.extra.feePayer = expected.extra.feePayer ∧
    actual.extra.feePayer = challenge.feePayer) .wrongFeePayer
  let memo ← okOr actual.extra.memo .invalidChallenge
  ensure (memo = challenge.memo ∧ 32 ≤ memo.utf8Len) .invalidChallenge
  ensure (∀ bh ∈ actual.extra.recentBlockhash, bh ≠ [] ∧ bh.utf8Len ≤ 88) .invalidChallenge
  ensure (actual.extra.lastValidBlockHeight.isSome → actual.extra.recentBlockhash.isSome)
    .invalidChallenge
  ensure (nowUnix ≤ challenge.expiresAt) .expired

/-- The transaction of a payment that answers the challenge. -/
def validatePaymentPayload (payload : PaymentPayload) (expected : PaymentRequirements)
    (challenge : PaymentChallenge) (nowUnix : Int64) (inputDigest : Text) : Paid Text := do
  ensure (payload.x402Version = x402Version) .wrongVersion
  ensure (payload.extensions.isEmpty = true) .unsupportedExtension
  ensure (payload.resource.url = challenge.resourceUrl ∧
    payload.resource.description = challenge.description ∧
    payload.resource.mimeType = applicationJson) .invalidChallenge
  validateRequirements payload.accepted expected challenge nowUnix
  ensure (challenge.inputDigest = inputDigest) .bindingMismatch
  let tx := payload.payload.transaction.trim
  ensure (tx ≠ []) .invalidTransaction
  let decoded ← okOr (Base64.decode tx) .invalidBase64
  ensure (decoded ≠ [] ∧ decoded.length ≤ maxSolanaTxBytes) .invalidTransaction
  .ok tx

/-- What a payment for the challenge has to meet. -/
def expectedRequirements (challenge : PaymentChallenge) : PaymentRequirements where
  scheme := schemeExact
  network := challenge.network
  amount := challenge.amount
  asset := challenge.asset
  payTo := challenge.merchant
  maxTimeoutSeconds := challenge.maxTimeoutSeconds
  extra :=
    { feePayer := challenge.feePayer, memo := some challenge.memo, recentBlockhash := none
      lastValidBlockHeight := none }

/-- The payment answers the challenge: it names the resource and the requirements of the challenge,
up to a recent blockhash of its own, and carries a transaction of a size the chain takes. -/
structure Answers (payload : PaymentPayload) (challenge : PaymentChallenge) (nowUnix : Int64)
    (inputDigest tx : Text) : Prop where
  version : payload.x402Version = x402Version
  extensions : payload.extensions = []
  resource : payload.resource = ⟨challenge.resourceUrl, challenge.description, applicationJson⟩
  accepted : payload.accepted =
    { expectedRequirements challenge with extra :=
      { (expectedRequirements challenge).extra with
        recentBlockhash := payload.accepted.extra.recentBlockhash
        lastValidBlockHeight := payload.accepted.extra.lastValidBlockHeight } }
  memo : 32 ≤ challenge.memo.utf8Len
  blockhash : ∀ bh ∈ payload.accepted.extra.recentBlockhash, bh ≠ [] ∧ bh.utf8Len ≤ 88
  height : payload.accepted.extra.lastValidBlockHeight.isSome →
    payload.accepted.extra.recentBlockhash.isSome
  unexpired : nowUnix ≤ challenge.expiresAt
  input : challenge.inputDigest = inputDigest
  trimmed : tx = payload.payload.transaction.trim
  transaction : ∃ bytes, Base64.decode tx = some bytes ∧ bytes ≠ [] ∧
    bytes.length ≤ maxSolanaTxBytes

section Validation

variable {actual : PaymentRequirements} {payload : PaymentPayload} {challenge : PaymentChallenge}
  {nowUnix : Int64} {inputDigest tx : Text}

theorem validateRequirements_eq_ok {u : Unit} :
    validateRequirements actual (expectedRequirements challenge) challenge nowUnix = .ok u ↔
      actual =
          { expectedRequirements challenge with extra :=
            { (expectedRequirements challenge).extra with
              recentBlockhash := actual.extra.recentBlockhash
              lastValidBlockHeight := actual.extra.lastValidBlockHeight } } ∧
        32 ≤ challenge.memo.utf8Len ∧
        (∀ bh ∈ actual.extra.recentBlockhash, bh ≠ [] ∧ bh.utf8Len ≤ 88) ∧
        (actual.extra.lastValidBlockHeight.isSome → actual.extra.recentBlockhash.isSome) ∧
        nowUnix ≤ challenge.expiresAt := by
  obtain ⟨scheme, network, amount, asset, payTo, timeout, feePayer, memo, blockhash, height⟩ :=
    actual
  simp only [validateRequirements, bind_eq_ok, ensure_eq_ok, okOr_eq_ok, exists_const]
  simp only [expectedRequirements, PaymentRequirements.mk.injEq, SvmExactExtra.mk.injEq]
  constructor
  · rintro ⟨⟨rfl, -⟩, ⟨rfl, -⟩, ⟨rfl, -⟩, ⟨rfl, -⟩, ⟨rfl, -⟩, rfl, ⟨rfl, -⟩, m, rfl, ⟨rfl, hm⟩, hb,
      hh, hu⟩
    exact ⟨⟨rfl, rfl, rfl, rfl, rfl, rfl, rfl, rfl, trivial, trivial⟩, hm, hb, hh, hu⟩
  · rintro ⟨⟨rfl, rfl, rfl, rfl, rfl, rfl, rfl, rfl, -⟩, hm, hb, hh, hu⟩
    exact ⟨⟨rfl, rfl⟩, ⟨rfl, rfl⟩, ⟨rfl, rfl⟩, ⟨rfl, rfl⟩, ⟨rfl, rfl⟩, rfl, ⟨rfl, rfl⟩, _, rfl,
      ⟨rfl, hm⟩, hb, hh, hu⟩

theorem validatePaymentPayload_eq_ok :
    validatePaymentPayload payload (expectedRequirements challenge) challenge nowUnix inputDigest =
        .ok tx ↔ Answers payload challenge nowUnix inputDigest tx := by
  have hresource : payload.resource.url = challenge.resourceUrl ∧
      payload.resource.description = challenge.description ∧
      payload.resource.mimeType = applicationJson ↔
        payload.resource = ⟨challenge.resourceUrl, challenge.description, applicationJson⟩ := by
    obtain ⟨url, description, mimeType⟩ := payload.resource
    simp only [ResourceInfo.mk.injEq]
  simp only [validatePaymentPayload, bind_eq_ok, ensure_eq_ok, okOr_eq_ok, exists_const,
    validateRequirements_eq_ok, List.isEmpty_iff, hresource, Except.ok.injEq]
  constructor
  · rintro ⟨hv, he, hr, ⟨ha, hm, hb, hh, hu⟩, hi, -, bytes, hd, hl, rfl⟩
    exact ⟨hv, he, hr, ha, hm, hb, hh, hu, hi, rfl, bytes, hd, hl⟩
  · rintro ⟨hv, he, hr, ha, hm, hb, hh, hu, hi, rfl, bytes, hd, hl⟩
    refine ⟨hv, he, hr, ⟨ha, hm, hb, hh, hu⟩, hi, fun hempty => hl.1 ?_, bytes, hd, hl, rfl⟩
    rw [hempty] at hd
    cases hd
    rfl

end Validation

end AgentBond.Payments
