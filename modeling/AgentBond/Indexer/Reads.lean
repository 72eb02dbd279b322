import AgentBond.Foundation.Paging
import AgentBond.Foundation.Text
import AgentBond.Indexer.Projection

/-! # Indexed reads

A page of the public tables is read in two statements: the checkpoint first, the
rows after. Addresses are taken as keys; the cursor of an event is its signature
and index as text.
-/

namespace AgentBond.Indexer

open Foundation

/-- Items, the checkpoint they are reported with and where the next page starts. -/
structure Page (α γ : Type) where
  asOfSlot : UInt64
  items : List α
  nextCursor : Option γ

structure IndexedJob where
  address : Pubkey
  asOfSlot : UInt64
  buyer : Pubkey
  provider : Pubkey
  amount : UInt64
  jobNonce : UInt64
  state : String

structure IndexedProvider where
  address : Pubkey
  asOfSlot : UInt64
  authority : Pubkey
  status : String

structure JobHistoryItem where
  signature : String
  eventIndex : UInt32
  slot : UInt64
  kind : UInt8
  actor : Pubkey
  amount : UInt64
  eventTimestamp : Int64

structure ProviderActivityItem where
  signature : String
  eventIndex : UInt32
  slot : UInt64
  kind : UInt8
  subject : Pubkey
  amount : UInt64
  eventTimestamp : Int64

def validateLimit (limit : Int) : Stored ℕ := do
  ensure (1 ≤ limit ∧ limit ≤ 100) (.validation "limit must be between 1 and 100")
  .ok limit.toNat

def validateJobState (state : String) : Stored Unit :=
  ensure (state ∈ jobStates) (.validation s!"invalid job state: {state}")

/-- How the database orders texts: some total order. -/
structure Collation where
  le : String → String → Prop
  decidableLe : DecidableRel le
  total : ∀ s t, le s t ∨ le t s
  trans : ∀ s t u, le s t → le t u → le s u
  antisymm : ∀ s t, le s t → le t s → s = t

/-- Events are ordered by signature, then by index. -/
def Collation.keyLe (C : Collation) (a b : EventKey) : Prop :=
  a.signature ≠ b.signature ∧ C.le a.signature b.signature ∨
    a.signature = b.signature ∧ a.eventIndex ≤ b.eventIndex

instance (C : Collation) : DecidableRel C.keyLe := fun a b =>
  haveI := C.decidableLe a.signature b.signature
  inferInstanceAs (Decidable (_ ∧ _ ∨ _ ∧ _))

def addressLe (a b : Pubkey) : Prop := a.toList < b.toList ∨ a = b

instance : DecidableRel addressLe := fun _ _ => inferInstanceAs (Decidable (_ ∨ _))

def eventCursor (k : EventKey) : Text :=
  k.signature.toList ++ ':' :: Nat.toDigits 10 k.eventIndex.toNat

def parseEventCursor : Option Text → Stored (Option EventKey)
  | none => .ok none
  | some c => do
    let (sig, idx) ← okOr (Text.rsplitOnce ':' c) (.validation "invalid cursor")
    let idx ← okOr (Text.parseI32 idx) (.validation "invalid cursor index")
    ensure (¬ (sig = [] ∨ idx < 0)) (.validation "invalid cursor")
    .ok (some { signature := String.ofList sig, eventIndex := UInt32.ofNat idx.toNat })

def indexedJob (e : Pubkey × Projected JobProjection) : IndexedJob :=
  { address := e.1, asOfSlot := e.2.asOfSlot, buyer := e.2.row.buyer, provider := e.2.row.provider,
    amount := e.2.row.amount, jobNonce := e.2.row.jobNonce, state := e.2.row.state }

def indexedProvider (e : Pubkey × Projected ProviderProjection) : IndexedProvider :=
  { address := e.1, asOfSlot := e.2.asOfSlot, authority := e.2.row.authority,
    status := e.2.row.status }

def jobHistoryItem (e : EventKey × EventRow) : JobHistoryItem :=
  { signature := e.1.signature, eventIndex := e.1.eventIndex, slot := e.2.slot, kind := e.2.kind,
    actor := e.2.actor, amount := e.2.amount, eventTimestamp := e.2.eventTimestamp }

def providerActivityItem (e : EventKey × EventRow) : ProviderActivityItem :=
  { signature := e.1.signature, eventIndex := e.1.eventIndex, slot := e.2.slot, kind := e.2.kind,
    subject := e.2.subject, amount := e.2.amount, eventTimestamp := e.2.eventTimestamp }

/-- The argument is left out or matches. -/
def optionally {α : Type} [DecidableEq α] (wanted : Option α) (a : α) : Bool :=
  match wanted with
  | none => true
  | some w => a = w

/-- The jobs on a page, with the last one's address when there are more. -/
def jobRows (now : Db) (limit : ℕ) (cursor : Option Pubkey) (state : Option String)
    (buyer provider : Option Pubkey) : Paging.Page Pubkey (Projected JobProjection) :=
  Paging.page addressLe limit cursor (now.projJobs.selectWhere fun _ r =>
    optionally state r.row.state && optionally buyer r.row.buyer &&
      optionally provider r.row.provider)

/-- The checkpoint is read from the database there is first, the jobs from the one there is then. -/
def listJobs (checked now : Db) (limit : Int) (cursor : Option Pubkey) (state : Option String)
    (buyer provider : Option Pubkey) : Stored (Page IndexedJob Pubkey) := do
  let limit ← validateLimit limit
  match state with
  | some s => validateJobState s
  | none => .ok ()
  let asOf := checked.finalizedSlot
  let page := jobRows now limit cursor state buyer provider
  ensure (page.rows.all (fun e => e.2.asOfSlot ≤ asOf) = true)
    (.conflict "projection newer than checkpoint")
  .ok { asOfSlot := asOf, items := page.rows.map indexedJob, nextCursor := page.next }

def providerRows (now : Db) (limit : ℕ) (cursor : Option Pubkey) :
    Paging.Page Pubkey (Projected ProviderProjection) :=
  Paging.page addressLe limit cursor (now.projProviders.selectWhere fun _ _ => true)

def listProviders (checked now : Db) (limit : Int) (cursor : Option Pubkey) :
    Stored (Page IndexedProvider Pubkey) := do
  let limit ← validateLimit limit
  let page := providerRows now limit cursor
  .ok { asOfSlot := checked.finalizedSlot, items := page.rows.map indexedProvider,
        nextCursor := page.next }

section Events

variable (C : Collation) (party : EventRow → Pubkey)

/-- The finalized events an address takes this part in. -/
def publicEvents (now : Db) (address : Pubkey) : List (EventKey × EventRow) :=
  now.rawProtocolEvents.selectWhere fun _ r => party r = address && r.commitment = .finalized

def eventRows (now : Db) (address : Pubkey) (limit : ℕ) (cursor : Option EventKey) :
    Paging.Page EventKey EventRow :=
  Paging.page C.keyLe limit cursor (publicEvents party now address)

/-- A page of the events of an address. -/
def eventPage {α : Type} (item : EventKey × EventRow → α) (checked now : Db) (address : Pubkey)
    (limit : Int) (cursor : Option Text) : Stored (Page α Text) := do
  let limit ← validateLimit limit
  let cursor ← parseEventCursor cursor
  let page := eventRows C party now address limit cursor
  .ok { asOfSlot := checked.finalizedSlot, items := page.rows.map item,
        nextCursor := page.next.map eventCursor }

def jobHistory (checked now : Db) (address : Pubkey) (limit : Int) (cursor : Option Text) :
    Stored (Page JobHistoryItem Text) :=
  eventPage C (·.subject) jobHistoryItem checked now address limit cursor

def providerActivity (checked now : Db) (address : Pubkey) (limit : Int) (cursor : Option Text) :
    Stored (Page ProviderActivityItem Text) :=
  eventPage C (·.actor) providerActivityItem checked now address limit cursor

end Events

section Arguments

variable {limit : Int} {n : ℕ} {k : EventKey}

@[simp] theorem validateLimit_eq_ok : validateLimit limit = .ok n ↔
    (1 ≤ limit ∧ limit ≤ 100) ∧ limit.toNat = n := by
  simp only [validateLimit, bind_eq_ok, ensure_eq_ok, exists_const, Except.ok.injEq]

/-- The cursor of an event reads back as its key. -/
theorem parseEventCursor_eventCursor (hsig : k.signature.toList ≠ [])
    (hidx : k.eventIndex.toNat < 256) : parseEventCursor (some (eventCursor k)) = .ok (some k) := by
  have hplain : ':' ∉ Nat.toDigits 10 k.eventIndex.toNat := fun h =>
    absurd (Nat.isDigit_of_mem_toDigits (by decide) (by decide) h) (by decide)
  have hindex : UInt32.ofNat k.eventIndex.toNat = k.eventIndex := UInt32.ofNat_toNat
  simp only [parseEventCursor, eventCursor, Text.rsplitOnce_append hplain, bind_eq_ok, okOr_eq_ok,
    Option.some.injEq, Prod.exists, ensure_eq_ok, exists_const, Except.ok.injEq]
  refine ⟨k.signature.toList, Nat.toDigits 10 k.eventIndex.toNat, rfl, _,
    Text.parseI32_toDigits (by omega), ?_, ?_⟩
  · simp [hsig]
  · simp [hindex, String.ofList_toList]

end Arguments

section Orders

instance : Std.Total addressLe := ⟨fun a b => by
  rcases bytes_lt_trichotomy a.toList b.toList with h | h | h
  · exact .inl (.inl h)
  · exact .inl (.inr (List.Vector.eq _ _ h))
  · exact .inr (.inl h)⟩

instance : IsTrans Pubkey addressLe := ⟨fun a b c => by
  rintro (h | rfl) (h' | rfl)
  · exact .inl (List.lt_trans h h')
  · exact .inl h
  · exact .inl h'
  · exact .inr rfl⟩

instance : Std.Antisymm addressLe := ⟨fun a b => by
  rintro (h | rfl) (h' | h')
  · exact absurd h' (List.lt_asymm h)
  · exact h'.symm
  · rfl
  · rfl⟩

variable (C : Collation)

instance : Std.Total C.keyLe := ⟨fun a b => by
  by_cases h : a.signature = b.signature
  · rcases UInt32.le_total a.eventIndex b.eventIndex with hle | hle
    · exact .inl (.inr ⟨h, hle⟩)
    · exact .inr (.inr ⟨h.symm, hle⟩)
  · rcases C.total a.signature b.signature with hle | hle
    · exact .inl (.inl ⟨h, hle⟩)
    · exact .inr (.inl ⟨Ne.symm h, hle⟩)⟩

instance : IsTrans EventKey C.keyLe := ⟨fun a b c => by
  rintro (⟨hab, h⟩ | ⟨hab, h⟩) (⟨hbc, h'⟩ | ⟨hbc, h'⟩)
  · refine .inl ⟨fun hac => hab ?_, C.trans _ _ _ h h'⟩
    exact C.antisymm _ _ h (hac ▸ h')
  · exact .inl ⟨hbc ▸ hab, hbc ▸ h⟩
  · exact .inl ⟨hab ▸ hbc, hab ▸ h'⟩
  · exact .inr ⟨hab.trans hbc, UInt32.le_trans h h'⟩⟩

instance : Std.Antisymm C.keyLe := ⟨fun a b => by
  rintro (⟨hab, h⟩ | ⟨hab, h⟩) (⟨hba, h'⟩ | ⟨hba, h'⟩)
  · exact absurd (C.antisymm _ _ h h') hab
  · exact absurd hba.symm hab
  · exact absurd hab.symm hba
  · cases a
    cases b
    simp only [EventKey.mk.injEq]
    exact ⟨hab, UInt32.le_antisymm h h'⟩⟩

end Orders

end AgentBond.Indexer
