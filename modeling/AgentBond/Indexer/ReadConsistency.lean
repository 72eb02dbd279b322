import AgentBond.Indexer.Overtaking

/-! # Reads while slots are finalized

Between its two statements a read can be overtaken by the finalization of a slot
above the checkpoint it has read. It is consistent exactly when nothing staged
above the checkpoint for these slots comes to stand on its page.
-/

namespace AgentBond.Indexer

open Foundation

section Conditions

variable {α : Type} (d : Db) (slots : List UInt64)

/-- The addresses that come to show a row that is wanted. -/
def listed (kind : ProjectionKind) (payload : α → ProjectionPayload) (wanted : α → Bool) :
    Set Pubkey :=
  {a | ∃ s row, shown d slots kind a = some (s, payload row) ∧ wanted row = true}

/-- No address that the page has room for is overtaken by what is staged for the slots. -/
def NoneOvertaken (limit : ℕ) (cursor : Option Pubkey) (kind : ProjectionKind)
    (payload : α → ProjectionPayload) (wanted : α → Bool) : Prop :=
  ∀ a, Paging.HasRoom addressLe limit cursor (listed d slots kind payload wanted) a →
    overtaking d slots kind a = none

/-- No upcoming event above the checkpoint is one that the page has room for. -/
def NoneAhead (C : Collation) (party : EventRow → Pubkey) (address : Pubkey) (limit : ℕ)
    (after : Option EventKey) : Prop :=
  ∀ k r, Upcoming d slots party address k r →
    Paging.HasRoom C.keyLe limit after {k | ∃ r, Upcoming d slots party address k r} k →
      ¬ d.finalizedSlot < r.slot

end Conditions

section Runs

variable {checked now : Db} {tr : List (Transition Db UInt64)} {address : Pubkey}

section Pages

variable {α : Type} {slots : List UInt64} {kind : ProjectionKind}
  {payload : α → ProjectionPayload} {wanted : α → Bool} {t : Table Pubkey (Projected α)}

theorem keys_selectWhere (hpayload : payload.Injective) (hshown : ∀ a, shown checked slots kind a =
      (t.get a).map fun r => (r.asOfSlot.toNat, payload r.row)) :
    {a | ∃ r, (a, r) ∈ t.selectWhere fun _ r => wanted r.row} =
      listed checked slots kind payload wanted := by
  ext a
  simp only [listed, Set.mem_ofPred_eq, Table.mem_selectWhere, hshown, Option.map_eq_some_iff,
    Prod.mk.injEq]
  constructor
  · rintro ⟨r, hr, hwanted⟩
    exact ⟨_, r.row, ⟨r, hr, rfl, rfl⟩, hwanted⟩
  · rintro ⟨s, row, ⟨r, hr, -, hrow⟩, hwanted⟩
    exact ⟨r, hr, hpayload hrow ▸ hwanted⟩

/-- The wanted rows on a page are within the checkpoint exactly when none of them is overtaken. -/
theorem page_within_iff (limit : ℕ) (cursor : Option Pubkey) (wanted : α → Bool)
    (hpayload : payload.Injective)
    (hshown : ∀ a, shown checked slots kind a =
      (t.get a).map fun r => (r.asOfSlot.toNat, payload r.row)) :
    (∀ e ∈ (Paging.page addressLe limit cursor
        (t.selectWhere fun _ r => wanted r.row)).rows, e.2.asOfSlot ≤ checked.finalizedSlot) ↔
      NoneOvertaken checked slots limit cursor kind payload wanted := by
  have hkeys : ((t.selectWhere fun _ r => wanted r.row).map Prod.fst).Nodup :=
    t.nodup.sublist (List.filter_sublist.map _)
  simp only [Paging.mem_page_iff hkeys, keys_selectWhere hpayload hshown, NoneOvertaken]
  constructor
  · intro h a hroom
    refine Option.eq_none_iff_forall_ne_some.mpr fun e he => ?_
    obtain ⟨hs, hlt⟩ := overtaking_eq_some.mp he
    obtain ⟨r, hr, rfl⟩ := Option.map_eq_some_iff.mp ((hshown a).symm.trans hs)
    obtain ⟨s, row, hrow, hwanted⟩ := hroom.1
    have hrow' : payload r.row = payload row :=
      congrArg Prod.snd (Option.some.inj (hs.symm.trans hrow))
    have hmem : (a, r) ∈ t.selectWhere fun _ r => wanted r.row :=
      Table.mem_selectWhere.mpr ⟨hr, hpayload hrow' ▸ hwanted⟩
    exact absurd (UInt64.le_iff_toNat_le.mp (h (a, r) ⟨hmem, hroom⟩)) (not_le.mpr hlt)
  · rintro h ⟨a, r⟩ ⟨hmem, hroom⟩
    have hs : shown checked slots kind a = some (r.asOfSlot.toNat, payload r.row) := by
      rw [hshown, (Table.mem_selectWhere.mp hmem).1, Option.map_some]
    refine UInt64.not_lt.mp fun hlt => ?_
    have he := overtaking_eq_some.mpr ⟨hs, UInt64.lt_iff_toNat_lt.mp hlt⟩
    rw [h a hroom] at he
    cases he

theorem eventPage_within_iff {C : Collation} {party : EventRow → Pubkey} {limit : ℕ}
    {after : Option EventKey} (hparty : ∀ r c, party { r with commitment := c } = party r)
    (h : Run Finalizes checked tr now) :
    (∀ e ∈ (eventRows C party now address limit after).rows, e.2.slot ≤ checked.finalizedSlot) ↔
      NoneAhead checked (tr.map Transition.label) C party address limit after := by
  have hkeys : {k | ∃ r, (k, r) ∈ publicEvents party now address} =
      {k | ∃ r, Upcoming checked (tr.map Transition.label) party address k r} := by
    ext k
    constructor
    · rintro ⟨r, hr⟩
      obtain ⟨r', hr', -⟩ := (event_of_run hparty h).mp ⟨r, hr, rfl⟩
      exact ⟨r', hr'⟩
    · rintro ⟨r, hr⟩
      obtain ⟨r', hr', -⟩ := (event_of_run hparty h).mpr ⟨r, hr, rfl⟩
      exact ⟨r', hr'⟩
  simp only [eventRows, Paging.mem_page_iff (nodup_publicEvents now), hkeys, NoneAhead]
  constructor
  · intro hle k r hr hroom hlt
    obtain ⟨r', hr', hslot⟩ := (event_of_run hparty h).mpr ⟨r, hr, rfl⟩
    have hle' := hle (k, r') ⟨hr', hroom⟩
    exact absurd (hslot ▸ hlt) (UInt64.not_lt.mpr hle')
  · rintro hnot ⟨k, r⟩ ⟨hmem, hroom⟩
    obtain ⟨r', hr', hslot⟩ := (event_of_run hparty h).mp ⟨r, hmem, rfl⟩
    exact UInt64.not_lt.mp fun hlt => hnot k r' hr' hroom (hslot ▸ hlt)

end Pages

/-- The call succeeds, and what it returns is within its checkpoint. -/
def Within {α γ : Type} (slotOf : α → UInt64) (reply : Stored (Page α γ)) : Prop :=
  ∃ page, reply = .ok page ∧ ∀ item ∈ page.items, slotOf item ≤ page.asOfSlot

theorem within_ok_iff {α β γ : Type} {slotOf : α → UInt64} {asOf : UInt64} {rows : List β}
    {item : β → α} {next : Option γ} :
    Within slotOf (.ok { asOfSlot := asOf, items := rows.map item, nextCursor := next }) ↔
      ∀ e ∈ rows, slotOf (item e) ≤ asOf := by
  constructor
  · rintro ⟨page, hpage, hitems⟩ e he
    cases hpage
    exact hitems _ (List.mem_map_of_mem he)
  · intro h
    refine ⟨_, rfl, fun i hi => ?_⟩
    obtain ⟨e, he, rfl⟩ := List.mem_map.mp hi
    exact h e he

variable {limit : Int} {cursor : Option Pubkey} {state : Option String}
  {buyer provider : Option Pubkey}

theorem within_listJobs_iff (hlimit : 1 ≤ limit ∧ limit ≤ 100)
    (hstate : ∀ s ∈ state, s ∈ jobStates) :
    Within (·.asOfSlot) (listJobs checked now limit cursor state buyer provider) ↔
      ∀ e ∈ (jobRows now limit.toNat cursor state buyer provider).rows,
        e.2.asOfSlot ≤ checked.finalizedSlot := by
  have hchecks : listJobs checked now limit cursor state buyer provider =
      (ensure ((jobRows now limit.toNat cursor state buyer provider).rows.all
          (fun e => e.2.asOfSlot ≤ checked.finalizedSlot) = true)
          (.conflict "projection newer than checkpoint") >>= fun _ =>
        .ok { asOfSlot := checked.finalizedSlot
              items := (jobRows now limit.toNat cursor state buyer provider).rows.map indexedJob
              nextCursor := (jobRows now limit.toNat cursor state buyer provider).next }) := by
    rw [listJobs, validateLimit_eq_ok.mpr ⟨hlimit, rfl⟩]
    cases state with
    | none => rfl
    | some s =>
      have hvalid : validateJobState s = .ok () := ensure_eq_ok.mpr (hstate s rfl)
      simp only [hvalid]
      rfl
  rw [hchecks]
  constructor
  · rintro ⟨page, hpage, -⟩ e he
    simp only [bind_eq_ok, ensure_eq_ok, exists_const, List.all_eq_true, decide_eq_true_eq] at hpage
    exact hpage.1 e he
  · intro h
    have hall : (jobRows now limit.toNat cursor state buyer provider).rows.all
        (fun e => e.2.asOfSlot ≤ checked.finalizedSlot) = true :=
      List.all_eq_true.mpr fun e he => decide_eq_true (h e he)
    rw [show ensure _ _ = Except.ok () from ensure_eq_ok.mpr hall]
    exact within_ok_iff.mpr h

theorem within_listProviders_iff (hlimit : 1 ≤ limit ∧ limit ≤ 100) :
    Within (·.asOfSlot) (listProviders checked now limit cursor) ↔
      ∀ e ∈ (providerRows now limit.toNat cursor).rows,
        e.2.asOfSlot ≤ checked.finalizedSlot := by
  rw [listProviders, validateLimit_eq_ok.mpr ⟨hlimit, rfl⟩]
  exact within_ok_iff

theorem within_eventPage_iff {C : Collation} {party : EventRow → Pubkey} {α : Type}
    (item : EventKey × EventRow → α) (slotOf : α → UInt64) {text : Option Text}
    {after : Option EventKey} (hlimit : 1 ≤ limit ∧ limit ≤ 100)
    (hcursor : parseEventCursor text = .ok after) (hslot : ∀ e, slotOf (item e) = e.2.slot) :
    Within slotOf (eventPage C party item checked now address limit text) ↔
      ∀ e ∈ (eventRows C party now address limit.toNat after).rows,
        e.2.slot ≤ checked.finalizedSlot := by
  rw [eventPage_eq_ok.mpr ⟨hlimit, after, hcursor, rfl⟩, within_ok_iff]
  simp only [hslot]

/-- Between the two statements of a read some slots are finalized. The call succeeds with no item
newer than its checkpoint exactly when nothing above the checkpoint comes to stand on its page, of
what the first statement could find staged or filed for these slots or there already. -/
theorem reads_consistent_iff (C : Collation) (address : Pubkey)
    (cursor buyer provider : Option Pubkey) {text : Option Text} {after : Option EventKey}
    (h : Run Finalizes checked tr now) (hlimit : 1 ≤ limit ∧ limit ≤ 100)
    (hstate : ∀ s ∈ state, s ∈ jobStates) (hcursor : parseEventCursor text = .ok after) :
    (Within (·.asOfSlot) (listJobs checked now limit cursor state buyer provider) ↔
      NoneOvertaken checked (tr.map Transition.label) limit.toNat cursor .job .job fun j =>
        optionally state j.state && optionally buyer j.buyer && optionally provider j.provider) ∧
    (Within (·.asOfSlot) (listProviders checked now limit cursor) ↔
      NoneOvertaken checked (tr.map Transition.label) limit.toNat cursor .provider .provider
        fun _ => true) ∧
    (Within (·.slot) (jobHistory C checked now address limit text) ↔
      NoneAhead checked (tr.map Transition.label) C (·.subject) address limit.toNat after) ∧
    (Within (·.slot) (providerActivity C checked now address limit text) ↔
      NoneAhead checked (tr.map Transition.label) C (·.actor) address limit.toNat after) := by
  refine ⟨?_, ?_, ?_, ?_⟩
  · have hshown : ∀ a, shown checked (tr.map Transition.label) .job a =
        (now.projJobs.get a).map fun r => (r.asOfSlot.toNat, .job r.row) :=
      fun a => (cell_of_run h).symm
    have hinj : Function.Injective ProjectionPayload.job := fun _ _ => ProjectionPayload.job.inj
    rw [within_listJobs_iff hlimit hstate, jobRows]
    exact page_within_iff limit.toNat cursor (fun j : JobProjection => optionally state j.state &&
      optionally buyer j.buyer && optionally provider j.provider) hinj hshown
  · have hshown : ∀ a, shown checked (tr.map Transition.label) .provider a =
        (now.projProviders.get a).map fun r => (r.asOfSlot.toNat, .provider r.row) :=
      fun a => (cell_of_run h).symm
    have hinj : Function.Injective ProjectionPayload.provider :=
      fun _ _ => ProjectionPayload.provider.inj
    rw [within_listProviders_iff hlimit, providerRows]
    exact page_within_iff limit.toNat cursor (fun _ => true) hinj hshown
  · refine Iff.trans ?_ (eventPage_within_iff (fun _ _ => rfl) h)
    exact within_eventPage_iff jobHistoryItem (·.slot) hlimit hcursor fun _ => rfl
  · refine Iff.trans ?_ (eventPage_within_iff (fun _ _ => rfl) h)
    exact within_eventPage_iff providerActivityItem (·.slot) hlimit hcursor fun _ => rfl

end Runs

namespace Overtaken

open Operation

def slotUpdate (slot : UInt64) (parentSlot : Option UInt64) (status : Commitment) : SlotUpdate :=
  { slot, parentSlot, status, blockTime := none }

/-- A provider is registered in slot 6, which comes to be finalized. -/
def raw : RawAccountVersion :=
  { address := zeroKey, slot := 6, writeVersion := 1, owner := none, lamports := 0,
    executable := false, data := none, deleted := false, commitment := .processed }

def registered : DecodedProjection :=
  { kind := .provider, address := zeroKey, slot := 6, writeVersion := 1
    payload := .provider { authority := zeroKey, status := "Active", executionKeyCount := 0 } }

def before : List Operation :=
  [.upsertSlot (slotUpdate 5 none .finalized), .finalizeSlot 5,
    .upsertSlot (slotUpdate 6 (some 5) .processed), .insertAccount raw (some registered),
    .upsertSlot (slotUpdate 6 (some 5) .finalized)]

def checked : Db := (carryOut Db.fresh before).toOption.getD Db.fresh

/-- The database after the slot is finalized. -/
def finalized (d : Db) (slot : UInt64) : Db := (finalizeSlot d slot).toOption.elim d Prod.fst

def now : Db := finalized checked 6

/-- A job is created in slot 7, which comes to be finalized. -/
def created : DecodedProjection :=
  { kind := .job, address := zeroKey, slot := 7, writeVersion := 1
    payload := .job { buyer := zeroKey, provider := zeroKey, mint := zeroKey,
                      tokenProgram := zeroKey, amount := 10, jobNonce := 1, state := "Created",
                      fundDeadline := 10, acceptDeadline := 20, workDeadline := 30,
                      autoSettleDeadline := 40, requestHash := zeroKey, receiptDigest := zeroKey,
                      lockedBond := 0, mintDecimals := 6 } }

def between : List Operation :=
  [.upsertSlot (slotUpdate 7 (some 6) .processed),
    .insertAccount { raw with slot := 7 } (some created),
    .upsertSlot (slotUpdate 7 (some 6) .finalized)]

/-- The checkpoint covers the provider of slot 6; a job of slot 7 is staged. -/
def staged : Db := (carryOut now between).toOption.getD now

def published : Db := finalized staged 7

theorem run_checked : ∃ tr, Run Operates Db.fresh tr checked := by
  have hok : carryOut Db.fresh before = .ok checked := eq_ok_of_isOk (by decide)
  obtain ⟨tr, htr, -⟩ := run_of_carryOut hok
  exact ⟨tr, htr⟩

theorem finalizes {d : Db} {slot : UInt64} (h : (finalizeSlot d slot).isOk = true) :
    Finalizes d slot (finalized d slot) := by
  unfold Finalizes finalized
  rcases hf : finalizeSlot d slot with e | ⟨d', n⟩
  · rw [hf] at h
    cases h
  · exact ⟨n, rfl⟩

/-- The provider of slot 6 is listed as of slot 6 while the job of slot 7 is published. -/
theorem reads_consistent_published :
    Within (·.asOfSlot) (listProviders staged published 1 none) ∧
      (providerRows published 1 none).rows ≠ [] := by
  have hlimit : (1 : Int) ≤ 1 ∧ (1 : Int) ≤ 100 := by decide
  have hstate : ∀ s ∈ (none : Option String), s ∈ jobStates := fun _ h => by cases h
  have hcursor : parseEventCursor none = .ok none := rfl
  have hok : (finalizeSlot staged 7).isOk = true := by decide +kernel
  have hrun : Run Finalizes staged [⟨staged, 7, published⟩] published := ⟨rfl, finalizes hok, rfl⟩
  have hiff := reads_consistent_iff Archive.plain zeroKey none none none hrun hlimit hstate hcursor
  constructor
  · refine hiff.2.1.mpr fun a _ => Option.eq_none_iff_forall_ne_some.mpr fun e he => ?_
    have hjobs : ((stagedFor staged [7]).filter fun p =>
        Concerns .provider p ∧ staged.finalizedSlot.toNat < p.slot.toNat) = [] :=
      List.isEmpty_iff.mp (by decide +kernel)
    have hrows : staged.projProviders.rows.all (fun e => e.2.asOfSlot.toNat ≤ 6) = true := by
      decide +kernel
    have hcheckpoint : staged.finalizedSlot = 6 := by decide +kernel
    rw [overtaking, List.map_singleton, hjobs, hcheckpoint] at he
    obtain ⟨hcell, hlt⟩ := Register.above_eq_some.mp he
    obtain ⟨r, hr, rfl⟩ := Option.map_eq_some_iff.mp hcell
    have hle := List.all_eq_true.mp hrows _ (Table.get_eq_some.mp hr)
    exact absurd (of_decide_eq_true hle) (not_le.mpr hlt)
  · exact fun hnil => absurd (congrArg List.length hnil) (by decide +kernel)

/-- The provider of slot 6 is listed as of slot 5. -/
theorem reads_overtaken : ¬ ∀ checked tr now, Reachable Operates (· = Db.fresh) checked →
    Run Finalizes checked tr now → Within (·.asOfSlot) (listProviders checked now 1 none) := by
  intro h
  obtain ⟨tr, htr⟩ := run_checked
  obtain ⟨page, hpage, hitems⟩ := h checked [⟨checked, 6, now⟩] now ⟨Db.fresh, tr, rfl, htr⟩
    ⟨rfl, finalizes (by decide), rfl⟩
  have hread : (listProviders checked now 1 none).toOption.map (fun page =>
      (page.asOfSlot, page.items.map (·.asOfSlot))) = some (5, [6]) := by decide +kernel
  rw [hpage] at hread
  simp only [Except.toOption, Option.map_some, Option.some.injEq, Prod.mk.injEq] at hread
  obtain ⟨hslot, hslots⟩ := hread
  obtain ⟨item, hitem, hsix⟩ := List.mem_map.mp (hslots ▸ List.mem_singleton_self (6 : UInt64))
  have hle := hitems item hitem
  change item.asOfSlot ≤ page.asOfSlot at hle
  rw [hsix, hslot] at hle
  exact absurd hle (by decide)

end Overtaken

end AgentBond.Indexer
