import AgentBond.Indexer.Cells
import AgentBond.Indexer.Events

/-! # What updates do to account versions

An update that goes through leaves the versions and the public rows alone, files
a version, or settles the versions of a slot.
-/

namespace AgentBond.Indexer

open Foundation

/-- An update that goes through. -/
def Ingests (e : Engine) (update : ChainUpdate) (e' : Engine) : Prop :=
  ∃ gap, ingestUpdate e update = (e', .ok gap)

/-- The projections an update applies. -/
def applied (d : Db) : ChainUpdate → List DecodedProjection
  | .account ⟨raw, some p⟩ =>
    if d.rawAccountVersions.get raw.key = none ∧
        commitmentAt d raw.slot raw.commitment = .finalized then [p] else []
  | .slot update => if update.status = .finalized then stagedProjections d update.slot else []
  | _ => []

/-- The update delivers a version that is not there yet, with this commitment. -/
def Delivers (d : Db) (update : ChainUpdate) (p : DecodedProjection) (c : Commitment) : Prop :=
  ∃ raw, update = .account ⟨raw, some p⟩ ∧ d.rawAccountVersions.get raw.key = none ∧
    raw.commitment = c

/-- A projection is about the version it comes with. -/
def Matching (update : ChainUpdate) : Prop :=
  ∀ raw p, update = .account ⟨raw, some p⟩ → p.key = raw.key

section Effects

variable {d d' d₁ : Db} {e e' : Engine} {a : Pubkey} {kind : ProjectionKind}

/-- The versions, what is staged and the public rows are as before. -/
structure SameVersions (d d' : Db) : Prop where
  versions : d'.rawAccountVersions = d.rawAccountVersions
  staged : d'.stagedAccountProjections = d.stagedAccountProjections
  cells : ∀ a kind, cell d' a kind = cell d a kind

/-- The slots are as before. -/
def SameSlots (d d' : Db) : Prop := ∀ s, slotStatus d' s = slotStatus d s

/-- What an update that goes through does to versions and public rows. -/
inductive Effect (d d' : Db) : ChainUpdate → Prop

  | idle {update : ChainUpdate} : applied d update = [] → (∀ p c, ¬ Delivers d update p c) →
      SameSlots d d' → SameVersions d d' → Effect d d' update

  | version {raw : RawAccountVersion} : d.rawAccountVersions.get raw.key = none →
      SameSlots d d' →
      d'.rawAccountVersions = d.rawAccountVersions.put raw.key
        (raw.row (commitmentAt d raw.slot raw.commitment)) →
      d'.stagedAccountProjections = d.stagedAccountProjections →
      (∀ a kind, cell d' a kind = cell d a kind) → Effect d d' (.account ⟨raw, none⟩)

  | staged {raw : RawAccountVersion} {p : DecodedProjection} :
      d.rawAccountVersions.get raw.key = none → SameSlots d d' →
      commitmentAt d raw.slot raw.commitment ≠ .finalized →
      d'.rawAccountVersions = d.rawAccountVersions.put raw.key
        (raw.row (commitmentAt d raw.slot raw.commitment)) →
      d'.stagedAccountProjections = d.stagedAccountProjections.put p.key ⟨p.kind, p.payload⟩ →
      (∀ a kind, cell d' a kind = cell d a kind) → Effect d d' (.account ⟨raw, some p⟩)

  | published {raw : RawAccountVersion} {p : DecodedProjection} :
      d.rawAccountVersions.get raw.key = none → SameSlots d d' →
      commitmentAt d raw.slot raw.commitment = .finalized →
      d'.rawAccountVersions = d.rawAccountVersions.put raw.key (raw.row .finalized) →
      d'.stagedAccountProjections =
        (d.stagedAccountProjections.put p.key ⟨p.kind, p.payload⟩).deleteWhere (fun k _ =>
          k = p.key) →
      (∀ a kind, cell d' a kind = cell (projectAll d [p]) a kind) →
      Effect d d' (.account ⟨raw, some p⟩)

  | opened {update : SlotUpdate} : update.status ≠ .dead → update.status ≠ .finalized →
      Settles d update d' → SameVersions d d' → Effect d d' (.slot update)

  | dead {update : SlotUpdate} : update.status = .dead → Settles d update d' →
      d'.rawAccountVersions = d.rawAccountVersions.deleteWhere (fun k r =>
        k.slot = update.slot ∧ r.commitment ≠ .finalized) →
      d'.stagedAccountProjections = d.stagedAccountProjections.deleteWhere (fun k _ =>
        k.slot = update.slot) →
      (∀ a kind, cell d' a kind = cell d a kind) → Effect d d' (.slot update)

  | finalized {update : SlotUpdate} : update.status = .finalized → Settles d update d' →
      d'.rawAccountVersions = d.rawAccountVersions.updateWhere (fun k _ => k.slot = update.slot)
        (fun r => { r with commitment := .finalized }) →
      d'.stagedAccountProjections = d.stagedAccountProjections.deleteWhere (fun k _ =>
        k.slot = update.slot) →
      (∀ a kind, cell d' a kind =
        cell (projectAll d (stagedProjections d update.slot)) a kind) →
      Effect d d' (.slot update)

theorem cell_markFinalized (slot : UInt64) :
    cell (markFinalized d slot) a kind = cell d a kind := by
  cases kind <;> rfl

theorem cell_advanceCheckpoint (slot : UInt64) :
    cell (advanceCheckpoint d slot) a kind = cell d a kind := by
  cases kind <;> rfl

theorem cell_cleanupDeadSlot (slot : UInt64) :
    cell (cleanupDeadSlot d slot) a kind = cell d a kind := by
  cases kind <;> rfl

theorem cell_project_congr (h : ∀ a kind, cell d' a kind = cell d a kind) (address : Pubkey)
    (slot : UInt64) (payload : ProjectionPayload) :
    cell (project d' address slot payload) a kind =
      cell (project d address slot payload) a kind := by
  by_cases ha : a = address
  · subst ha
    by_cases ht : payload = .tombstone
    · subst ht
      rw [cell_tombstone, cell_tombstone, h]
    · by_cases hk : payload.kind = kind
      · subst hk
        rw [cell_kind ht, cell_kind ht, h]
      · rw [cell_other ht hk, cell_other ht hk, h]
  · rw [cell_project_of_ne ha, cell_project_of_ne ha, h]

theorem cell_projectAll_congr (h : ∀ a kind, cell d' a kind = cell d a kind)
    (ps : List DecodedProjection) :
    cell (projectAll d' ps) a kind = cell (projectAll d ps) a kind := by
  induction ps generalizing d d' with
  | nil => exact h a kind
  | cons p ps ih => exact ih fun a kind => cell_project_congr h p.address p.slot p.payload

theorem applied_slot_of_ne {update : SlotUpdate} (hf : update.status ≠ .finalized) :
    applied d (.slot update) = [] := if_neg hf

theorem not_delivers_slot {update : SlotUpdate} (p : DecodedProjection) (c : Commitment) :
    ¬ Delivers d (.slot update) p c := by
  rintro ⟨_, h, -⟩
  cases h

theorem effect_of_upsertSlot {update : SlotUpdate} (h : upsertSlot d update = .ok d')
    (hf : update.status ≠ .finalized) : Effect d d' (.slot update) := by
  obtain ⟨-, ⟨hup, hwrite⟩ | ⟨-, rfl⟩⟩ := upsertSlot_eq_ok.mp h
  · obtain ⟨-, ⟨hd, rfl⟩ | ⟨hd, rfl⟩⟩ := writeSlot_eq_ok.mp hwrite
    · refine .dead hd ⟨hup, fun _ => rfl, ?_⟩ rfl rfl fun a kind => ?_
      · rw [settleEvents_of_dead hd]
        rfl
      · cases kind <;> rfl
    · refine .opened hd hf ⟨hup, fun _ => rfl, ?_⟩ ⟨rfl, rfl, fun a kind => ?_⟩
      · rw [settleEvents_of_open hd hf]
      · cases kind <;> rfl
  · exact .idle (applied_slot_of_ne hf) not_delivers_slot (fun _ => rfl) ⟨rfl, rfl, fun _ _ => rfl⟩

theorem effect_of_finalizeSlot {update : SlotUpdate} {n : ℕ} (h : upsertSlot d update = .ok d₁)
    (hf : update.status = .finalized) (h' : finalizeSlot d₁ update.slot = .ok (d', n)) :
    Effect d d' (.slot update) := by
  obtain ⟨⟨haccepts, -⟩, rfl⟩ := (upsertSlot_finalized_eq_ok hf).mp h
  obtain ⟨row, hrow, hstatus⟩ := get_recordSlot d.indexerSlots update
  have hslots := get_of_finalizeSlot h' ((slotStatus_of_get hrow).trans (by rw [hstatus, hf]))
  obtain ⟨-, -, -, rfl, -⟩ := finalizeSlot_eq_ok.mp h'
  generalize hd₁ : markFinalized { d with
    indexerSlots := recordSlot d.indexerSlots update,
    processedSlot := max d.processedSlot update.slot } update.slot = d₁ at hslots
  have hu : Untouched d₁ (projectAll d₁ (stagedProjections d update.slot)) := untouched_projectAll _
  refine .finalized hf ⟨haccepts.upgrades hf, hslots, ?_⟩ ?_ ?_ fun a kind => ?_
  · rw [settleEvents_of_finalized hf]
    refine Eq.trans hu.rawProtocolEvents ?_
    rw [← hd₁]
    rfl
  · refine Eq.trans hu.rawAccountVersions ?_
    rw [← hd₁]
    rfl
  · change (projectAll d₁ (stagedProjections d update.slot)).stagedAccountProjections.deleteWhere
      (fun k _ => k.slot = update.slot) = _
    rw [hu.stagedAccountProjections, ← hd₁]
    rfl
  · rw [cell_advanceCheckpoint]
    refine cell_projectAll_congr (fun a kind => ?_) _
    rw [← hd₁, cell_markFinalized]
    cases kind <;> rfl

theorem Effect.of_gaps {update : ChainUpdate} {g : Table (UInt64 × UInt64) GapStatus}
    (h : Effect { d with ingestionGaps := g } d' update) : Effect d d' update := by
  have hc : ∀ ps a kind, cell (projectAll { d with ingestionGaps := g } ps) a kind =
      cell (projectAll d ps) a kind := fun ps a kind =>
    cell_projectAll_congr (fun a kind => by cases kind <;> rfl) ps
  have hc₀ : ∀ a kind, cell { d with ingestionGaps := g } a kind = cell d a kind := hc []
  cases h with
  | idle ha hd hs hv =>
    refine .idle ?_ hd hs
      ⟨hv.versions, hv.staged, fun a kind => (hv.cells a kind).trans (hc₀ a kind)⟩
    rw [← ha]
    rfl
  | version hn hs hr ht hv =>
    exact .version hn hs hr ht fun a kind => (hv a kind).trans (hc₀ a kind)
  | staged hn hs hf hr ht hv =>
    exact .staged hn hs hf hr ht fun a kind => (hv a kind).trans (hc₀ a kind)
  | published hn hs hf hr ht hv =>
    exact .published hn hs hf hr ht fun a kind => (hv a kind).trans (hc _ a kind)
  | opened hd hf hs hv =>
    exact .opened hd hf ⟨hs.upgrades, hs.slots, hs.events⟩
      ⟨hv.versions, hv.staged, fun a kind => (hv.cells a kind).trans (hc₀ a kind)⟩
  | dead hd hs hr ht hv =>
    exact .dead hd ⟨hs.upgrades, hs.slots, hs.events⟩ hr ht fun a kind =>
      (hv a kind).trans (hc₀ a kind)
  | finalized hf hs hr ht hv =>
    exact .finalized hf ⟨hs.upgrades, hs.slots, hs.events⟩ hr ht fun a kind =>
      (hv a kind).trans (hc _ a kind)

theorem effect_of_ingestSlot {update : SlotUpdate} {gap : Option (UInt64 × UInt64)}
    (h : ingestSlot e update = (e', .ok gap)) : Effect e.db e'.db (.slot update) := by
  rw [ingestSlot] at h
  split at h
  · cases h
  · rename_i e₁ gap' htrack
    -- Tracking the slot writes gaps only, which no effect is about.
    obtain ⟨g, hg⟩ : ∃ g, e₁.db = { e.db with ingestionGaps := g } := ⟨_, db_of_trackSlot htrack⟩
    have hback : ∀ {d'}, Effect e₁.db d' (.slot update) → Effect e.db d' (.slot update) := by
      intro d' heffect
      rw [hg] at heffect
      exact heffect.of_gaps
    split at h
    · cases h
    · rename_i d₁ hupsert
      split at h
      · rename_i hf
        split at h
        · cases h
        · rename_i d₂ n hfinalize
          cases h
          exact hback (effect_of_finalizeSlot hupsert hf hfinalize)
      · rename_i hf
        cases h
        exact hback (effect_of_upsertSlot hupsert hf)

theorem effect_of_insertAccount {raw : RawAccountVersion} {projection : Option DecodedProjection}
    {fresh : Bool} (h : insertAccountWithProjection d raw projection = .ok (d', fresh)) :
    Effect d d' (.account ⟨raw, projection⟩) := by
  obtain ⟨-, -, -, ⟨⟨row, hrow⟩, rfl, -⟩ | ⟨hnew, -, ⟨p, rfl, hstore⟩ | ⟨rfl, rfl⟩⟩⟩ :=
    insertAccount_eq_ok.mp h
  · refine .idle ?_ ?_ (fun _ => rfl) ⟨rfl, rfl, fun _ _ => rfl⟩
    · cases projection with
      | none => rfl
      | some p => exact if_neg fun hn => by rw [hrow] at hn; cases hn.1
    · rintro p c ⟨raw', heq, hn, -⟩
      cases heq
      rw [hrow] at hn
      cases hn
  · obtain ⟨-, -, ⟨hnow, -, rfl⟩ | ⟨hnow, rfl⟩⟩ := storeProjection_eq_ok.mp hstore
    · have hf := of_decide_eq_true hnow
      have hu : Untouched (stage (recordVersion d raw) p)
          (project (stage (recordVersion d raw) p) p.address p.slot p.payload) :=
        untouched_project _ _ _
      refine .published hnew (fun s => ?_) hf ?_ rfl fun a kind => ?_
      · exact congrArg (fun t => (Table.get t s).map (·.status)) hu.indexerSlots
      · refine Eq.trans hu.rawAccountVersions ?_
        rw [← hf]
        rfl
      · calc cell (publish (recordVersion d raw) p) a kind
            = cell (project (stage (recordVersion d raw) p) p.address p.slot p.payload) a kind := by
              cases kind <;> rfl
          _ = cell (project d p.address p.slot p.payload) a kind :=
              cell_project_congr (fun a kind => by cases kind <;> rfl) _ _ _
    · refine .staged hnew (fun _ => rfl) (of_decide_eq_false hnow) rfl rfl fun a kind => ?_
      cases kind <;> rfl
  · refine .version hnew (fun _ => rfl) rfl rfl fun a kind => ?_
    cases kind <;> rfl

theorem effect_of_ingestEvents {evs : List RawProtocolEvent} :
    Effect e.db (ingestEvents e evs).1.db (.events evs) := by
  have hsame : SameSlots e.db (ingestEvents e evs).1.db ∧
      SameVersions e.db (ingestEvents e evs).1.db := by
    induction evs generalizing e with
    | nil => exact ⟨fun _ => rfl, rfl, rfl, fun _ _ => rfl⟩
    | cons ev evs ih =>
      rw [ingestEvents]
      split
      · exact ⟨fun _ => rfl, rfl, rfl, fun _ _ => rfl⟩
      · rename_i db fresh hev
        obtain ⟨hs, hr, ht, hc⟩ := ih (e := { e with db })
        have hdb : db = { e.db with rawProtocolEvents := db.rawProtocolEvents } := by
          obtain ⟨-, ⟨-, rfl, -⟩ | ⟨-, rfl, -⟩⟩ := insertEvent_eq_ok.mp hev <;> rfl
        generalize db.rawProtocolEvents = table at hdb
        subst hdb
        exact ⟨hs, hr, ht, fun a kind => (hc a kind).trans (by cases kind <;> rfl)⟩
  refine .idle rfl ?_ hsame.1 hsame.2
  rintro p c ⟨_, h, -⟩
  cases h

theorem effect_of_ingests {update : ChainUpdate} (h : Ingests e update e') :
    Effect e.db e'.db update := by
  obtain ⟨gap, h⟩ := h
  cases update with
  | slot update => exact effect_of_ingestSlot h
  | account account =>
    change ingestAccount e account = _ at h
    rw [ingestAccount] at h
    split at h
    · cases h
    · rename_i hinsert
      cases h
      exact effect_of_insertAccount hinsert
  | events evs =>
    obtain rfl : (ingestEvents e evs).1 = e' := congrArg Prod.fst h
    exact effect_of_ingestEvents

end Effects

theorem mem_stagedProjections {d : Db} {slot : UInt64} {p : DecodedProjection} :
    p ∈ stagedProjections d slot ↔
      p.slot = slot ∧ d.stagedAccountProjections.get p.key = some ⟨p.kind, p.payload⟩ := by
  simp only [stagedProjections, List.mem_map, List.mem_insertionSort, Table.mem_selectWhere,
    decide_eq_true_eq]
  constructor
  · rintro ⟨⟨k, r⟩, ⟨hget, hs⟩, rfl⟩
    exact ⟨hs, hget⟩
  · rintro ⟨hs, hget⟩
    exact ⟨(p.key, ⟨p.kind, p.payload⟩), ⟨hget, hs⟩, rfl⟩

end AgentBond.Indexer
