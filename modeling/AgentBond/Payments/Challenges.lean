import AgentBond.Indexer.Db
import AgentBond.Payments.Settlement

/-! # Challenge stores

A store issues challenges, each under fresh random text, and finds them by it
until they expire. The store in memory keeps a bounded number of them and drops
the expired ones first; the one in the database refuses what its columns do not
take and deletes some expired rows with every challenge it issues.
-/

namespace AgentBond.Payments

open Foundation

/-- Sixteen random bytes in hexadecimal digits, unless none could be drawn. -/
def randomMemoHex : Option (Bytes 16) → Paid Text
  | some bytes => .ok (Text.hex bytes.toList)
  | none => .error (.internal "rng failed")

/-- A store of challenges. Each call is atomic; the random bytes are drawn by the caller. -/
structure ChallengeStore where
  Row : Type
  issue : Option (Bytes 16) → X402ResourceConfig → ResourceInfo → Text → Int64 → Table Text Row →
    Table Text Row × Paid (PaymentRequirements × PaymentChallenge)
  getValid : Text → Int64 → Table Text Row → Table Text Row × Paid PaymentChallenge

/-- The challenge a store issues. -/
def newChallenge (cfg : X402ResourceConfig) (resource : ResourceInfo) (inputDigest memo : Text)
    (issuedAt expiresAt : Int64) : PaymentChallenge where
  memo := memo
  serviceId := cfg.serviceId
  resourceUrl := resource.url
  description := resource.description
  merchant := cfg.payTo
  asset := cfg.asset
  amount := cfg.amount
  network := cfg.network
  feePayer := cfg.feePayer
  inputDigest := inputDigest
  issuedAt := issuedAt
  expiresAt := expiresAt
  maxTimeoutSeconds := cfg.maxTimeoutSeconds

/-- The requirements that go with it. -/
def newRequirements (cfg : X402ResourceConfig) (memo : Text) : PaymentRequirements where
  scheme := schemeExact
  network := cfg.network
  amount := cfg.amount
  asset := cfg.asset
  payTo := cfg.payTo
  maxTimeoutSeconds := cfg.maxTimeoutSeconds
  extra :=
    { feePayer := cfg.feePayer, memo := some memo, recentBlockhash := none
      lastValidBlockHeight := none }

namespace MemoryChallengeStore

def maxChallenges : ℕ := 512

abbrev Map := Table Text PaymentChallenge

def evictExpired (now : Int64) (map : Map) : Map :=
  map.deleteWhere fun _ c => !decide (now ≤ c.expiresAt)

/-- The first of those issued earliest. -/
def earliest : List (Text × PaymentChallenge) → Option (Text × PaymentChallenge)
  | [] => none
  | e :: entries =>
    match earliest entries with
    | some best => if best.2.issuedAt < e.2.issuedAt then some best else some e
    | none => some e

def evictOldest (map : Map) : Map :=
  match earliest map.rows with
  | some e => map.deleteWhere fun k _ => k = e.1
  | none => map

/-- Room for one more challenge. -/
def makeRoom (map : Map) : Map :=
  if maxChallenges ≤ map.rows.length then evictOldest map else map

def issue (bytes : Option (Bytes 16)) (cfg : X402ResourceConfig) (resource : ResourceInfo)
    (inputDigest : Text) (issuedAt : Int64) (map : Map) :
    Map × Paid (PaymentRequirements × PaymentChallenge) :=
  match randomMemoHex bytes with
  | .error e => (map, .error e)
  | .ok memo =>
    match checkedAddI64 issuedAt cfg.maxTimeoutSeconds.toInt64 with
    | none => (map, .error (.internal "expires_at overflow"))
    | some expiresAt =>
      let challenge := newChallenge cfg resource inputDigest memo issuedAt expiresAt
      ((makeRoom (evictExpired issuedAt map)).put memo challenge,
        .ok (newRequirements cfg memo, challenge))

def getValid (memo : Text) (now : Int64) (map : Map) : Map × Paid PaymentChallenge :=
  let map := evictExpired now map
  match map.get memo with
  | none => (map, .error .invalidChallenge)
  | some challenge =>
    if challenge.expiresAt < now then
      (map.deleteWhere fun k _ => k = memo, .error .challengeExpired)
    else (map, .ok challenge)

end MemoryChallengeStore

def memoryChallenges : ChallengeStore where
  Row := PaymentChallenge
  issue := MemoryChallengeStore.issue
  getValid := MemoryChallengeStore.getValid

namespace PgChallengeStore

/-- A row of `x402_challenges`. -/
structure ChallengeRow where
  memo : Text
  serviceId : Text
  resourceUrl : Text
  description : Text
  merchant : Text
  asset : Text
  amount : Text
  network : Text
  feePayer : Text
  inputDigest : Text
  issuedAt : Int64
  expiresAt : Int64
  maxTimeoutSeconds : Int64

abbrev Rows := Table Text ChallengeRow

/-- The columns take the row. -/
def checkRow (row : ChallengeRow) : Bool :=
  Pg.lowerHex 32 row.memo && Pg.fits 1 64 row.serviceId && Pg.fits 1 512 row.resourceUrl &&
    Pg.fits 0 256 row.description && Pg.fits 32 64 row.merchant && Pg.fits 32 64 row.asset &&
    Pg.fits 1 40 row.amount && Pg.fits 1 64 row.network && Pg.fits 32 64 row.feePayer &&
    Pg.lowerHex 64 row.inputDigest && decide (Indexer.Storable row.issuedAt) &&
    decide (Indexer.Storable row.expiresAt) &&
    decide (0 < row.maxTimeoutSeconds ∧ row.maxTimeoutSeconds ≤ 86400)

/-- The number of expired rows that are deleted with every challenge issued. -/
def purgeLimit : ℕ := 64

/-- Delete expired rows, as many as the limit allows, in the order the table is scanned in. -/
def purgeExpired (now : Int64) (limit : ℕ) (rows : Rows) : Rows :=
  let expired :=
    ((rows.selectWhere fun _ row => decide (row.expiresAt < now)).take limit).map Prod.fst
  rows.deleteWhere fun k _ => expired.contains k

def newRow (challenge : PaymentChallenge) : ChallengeRow where
  memo := challenge.memo
  serviceId := challenge.serviceId
  resourceUrl := challenge.resourceUrl
  description := challenge.description
  merchant := challenge.merchant
  asset := challenge.asset
  amount := challenge.amount
  network := challenge.network
  feePayer := challenge.feePayer
  inputDigest := challenge.inputDigest
  issuedAt := challenge.issuedAt
  expiresAt := challenge.expiresAt
  maxTimeoutSeconds := challenge.maxTimeoutSeconds.toInt64

def issue (bytes : Option (Bytes 16)) (cfg : X402ResourceConfig) (resource : ResourceInfo)
    (inputDigest : Text) (issuedAt : Int64) (rows : Rows) :
    Rows × Paid (PaymentRequirements × PaymentChallenge) :=
  match randomMemoHex bytes with
  | .error e => (rows, .error e)
  | .ok memo =>
    match checkedAddI64 issuedAt cfg.maxTimeoutSeconds.toInt64 with
    | none => (rows, .error (.internal "expires overflow"))
    | some expiresAt =>
      match Indexer.timestampOpt issuedAt, Indexer.timestampOpt expiresAt with
      | none, _ => (rows, .error (.internal "bad issued_at"))
      | some _, none => (rows, .error (.internal "bad expires_at"))
      | some _, some _ =>
        let challenge := newChallenge cfg resource inputDigest memo issuedAt expiresAt
        -- The text is the primary key.
        if checkRow (newRow challenge) && (rows.get memo).isNone then
          (purgeExpired issuedAt purgeLimit (rows.put memo (newRow challenge)),
            .ok (newRequirements cfg memo, challenge))
        else (rows, .error databaseError)

/-- The challenge in a row. -/
def ChallengeRow.challenge (row : ChallengeRow) : PaymentChallenge where
  memo := row.memo
  serviceId := row.serviceId
  resourceUrl := row.resourceUrl
  description := row.description
  merchant := row.merchant
  asset := row.asset
  amount := row.amount
  network := row.network
  feePayer := row.feePayer
  inputDigest := row.inputDigest
  issuedAt := row.issuedAt
  expiresAt := row.expiresAt
  maxTimeoutSeconds := row.maxTimeoutSeconds.toUInt64

def getValid (memo : Text) (now : Int64) (rows : Rows) : Rows × Paid PaymentChallenge :=
  -- The database takes no text with the character 0 in it.
  if Json.nul memo then (rows, .error databaseError)
  else
    match rows.get memo with
    | none => (rows, .error .invalidChallenge)
    | some row =>
      if row.expiresAt < now then (rows.deleteWhere fun k _ => k = memo, .error .challengeExpired)
      else (rows, .ok row.challenge)

end PgChallengeStore

def pgChallenges : ChallengeStore where
  Row := PgChallengeStore.ChallengeRow
  issue := PgChallengeStore.issue
  getValid := PgChallengeStore.getValid

end AgentBond.Payments
