import AgentBond.Indexer.Versions

/-! # Where account versions are

A delivered version is staged until its slot is finalized, in the public tables
from then on, and nowhere when its slot is dead.
-/

namespace AgentBond.Indexer

open Foundation

/-- The version was delivered, as finalized or for a slot that is finalized by now. -/
def Counted (D : DecodedProjection → Commitment → Prop) (d : Db) (p : DecodedProjection) : Prop :=
  ∃ c, D p c ∧ (c = .finalized ∨ slotStatus d p.slot = some .finalized)

/-- Every delivered version has its place. -/
structure Filed (D : DecodedProjection → Commitment → Prop) (d : Db) : Prop where
  counted : ∀ p, Counted D d p →
    ∃ row, d.rawAccountVersions.get p.key = some row ∧ row.commitment = .finalized
  staged : ∀ k r, d.stagedAccountProjections.get k = some r →
    slotStatus d k.slot ≠ some .finalized ∧
      (∃ row, d.rawAccountVersions.get k = some row ∧ row.commitment ≠ .finalized) ∧
      ∃ p c, D p c ∧ p.key = k ∧ r = ⟨p.kind, p.payload⟩
  kept : ∀ p c, D p c → Counted D d p ∨
    d.stagedAccountProjections.get p.key = some ⟨p.kind, p.payload⟩ ∨
      slotStatus d p.slot = some .dead

/-- The deliveries so far and those of one more update. -/
def orDelivers (D : DecodedProjection → Commitment → Prop) (d : Db) (update : ChainUpdate) :
    DecodedProjection → Commitment → Prop :=
  fun p c => D p c ∨ Delivers d update p c

section Histories

variable {D : DecodedProjection → Commitment → Prop} {d d' : Db} {p q : DecodedProjection}
  {c : Commitment}

theorem orDelivers_of_not {update : ChainUpdate} (h : ∀ p c, ¬ Delivers d update p c) :
    orDelivers D d update = D := by
  funext p c
  exact propext (or_iff_left (h p c))

theorem Counted.congr {s : UInt64} (hs : p.slot = s)
    (h : slotStatus d' s = some .finalized ↔ slotStatus d s = some .finalized) :
    Counted D d' p ↔ Counted D d p := by
  subst hs
  simp only [Counted, h]

/-- What a step has to show of its history. -/
structure FiledStep (D : DecodedProjection → Commitment → Prop) (d d' : Db)
    (update : ChainUpdate) : Prop where
  filed : Filed (orDelivers D d update) d'
  counted : ∀ p, Counted (orDelivers D d update) d' p ↔ Counted D d p ∨ p ∈ applied d update

theorem Filed.idle {update : ChainUpdate} (h : Filed D d) (ha : applied d update = [])
    (hd : ∀ p c, ¬ Delivers d update p c) (hs : SameSlots d d')
    (hr : d'.rawAccountVersions = d.rawAccountVersions)
    (ht : d'.stagedAccountProjections = d.stagedAccountProjections) : FiledStep D d d' update := by
  have hcount : ∀ p, Counted D d' p ↔ Counted D d p := fun p =>
    Counted.congr rfl (by rw [hs])
  constructor
  · rw [orDelivers_of_not hd]
    constructor
    · intro p hp
      rw [hr]
      exact h.counted p ((hcount p).mp hp)
    · intro k r hk
      rw [ht] at hk
      rw [hs, hr]
      exact h.staged k r hk
    · intro p c hp
      rw [hcount, ht, hs]
      exact h.kept p c hp
  · intro p
    rw [orDelivers_of_not hd, ha, hcount]
    simp

section Account

variable {raw : RawAccountVersion}

theorem get_put_of_absent {k : VersionKey} {row row' : AccountVersionRow}
    (hn : d.rawAccountVersions.get raw.key = none) (hk : d.rawAccountVersions.get k = some row) :
    (d.rawAccountVersions.put raw.key row').get k = some row := by
  rw [Table.get_put_of_ne, hk]
  rintro rfl
  cases hn.symm.trans hk

theorem not_delivers_version {raw : RawAccountVersion} (p : DecodedProjection) (c : Commitment) :
    ¬ Delivers d (.account ⟨raw, none⟩) p c := by
  rintro ⟨_, h, -⟩
  cases h

theorem Filed.version (h : Filed D d) (hn : d.rawAccountVersions.get raw.key = none)
    (hs : SameSlots d d') {row' : AccountVersionRow}
    (hr : d'.rawAccountVersions = d.rawAccountVersions.put raw.key row')
    (ht : d'.stagedAccountProjections = d.stagedAccountProjections) :
    FiledStep D d d' (.account ⟨raw, none⟩) := by
  have hcount : ∀ p, Counted D d' p ↔ Counted D d p := fun p => Counted.congr rfl (by rw [hs])
  constructor
  · rw [orDelivers_of_not not_delivers_version]
    constructor
    · intro p hp
      obtain ⟨row, hrow, hf⟩ := h.counted p ((hcount p).mp hp)
      rw [hr]
      exact ⟨row, get_put_of_absent hn hrow, hf⟩
    · intro k r hk
      rw [ht] at hk
      obtain ⟨hst, ⟨row, hrow, hf⟩, hd⟩ := h.staged k r hk
      rw [hs, hr]
      exact ⟨hst, ⟨row, get_put_of_absent hn hrow, hf⟩, hd⟩
    · intro p c hp
      rw [hcount, ht, hs]
      exact h.kept p c hp
  · intro p
    rw [orDelivers_of_not not_delivers_version, hcount]
    simp [applied]

theorem delivers_account (hn : d.rawAccountVersions.get raw.key = none) :
    Delivers d (.account ⟨raw, some p⟩) q c ↔ q = p ∧ c = raw.commitment := by
  constructor
  · rintro ⟨_, heq, -, rfl⟩
    cases heq
    exact ⟨rfl, rfl⟩
  · rintro ⟨rfl, rfl⟩
    exact ⟨raw, rfl, hn, rfl⟩

theorem commitmentAt_eq_finalized {slot : UInt64} :
    commitmentAt d slot c = .finalized ↔ c = .finalized ∨ slotStatus d slot = some .finalized := by
  unfold commitmentAt
  split
  · rename_i h
    exact iff_of_true rfl h.symm
  · rename_i h
    rw [not_or] at h
    exact ⟨.inl, fun h' => h'.resolve_right h.1⟩

theorem counted_account (hn : d.rawAccountVersions.get raw.key = none) (hs : SameSlots d d')
    (hm : p.key = raw.key) : Counted (orDelivers D d (.account ⟨raw, some p⟩)) d' q ↔
      Counted D d q ∨ q ∈ applied d (.account ⟨raw, some p⟩) := by
  have hslot : p.slot = raw.slot := congrArg VersionKey.slot hm
  have happ : q ∈ applied d (.account ⟨raw, some p⟩) ↔
      q = p ∧ (raw.commitment = .finalized ∨ slotStatus d p.slot = some .finalized) := by
    rw [applied, hslot, ← commitmentAt_eq_finalized]
    split
    · rename_i h
      simp [h.2]
    · rename_i h
      simp [hn] at h
      simp [h]
  rw [happ]
  simp only [Counted, orDelivers, delivers_account hn, hs q.slot, or_and_right, exists_or]
  refine or_congr Iff.rfl ?_
  constructor
  · rintro ⟨_, ⟨rfl, rfl⟩, h⟩
    exact ⟨rfl, h⟩
  · rintro ⟨rfl, h⟩
    exact ⟨_, ⟨rfl, rfl⟩, h⟩

theorem Filed.key_ne (h : Filed D d) (hn : d.rawAccountVersions.get raw.key = none) {k : VersionKey}
    {r : StagedRow} (hk : d.stagedAccountProjections.get k = some r) : k ≠ raw.key := by
  rintro rfl
  obtain ⟨-, ⟨row, hrow, -⟩, -⟩ := h.staged _ r hk
  cases hn.symm.trans hrow

theorem Filed.account (h : Filed D d) (hn : d.rawAccountVersions.get raw.key = none)
    (hs : SameSlots d d') (hm : p.key = raw.key)
    (hr : d'.rawAccountVersions = d.rawAccountVersions.put raw.key
      (raw.row (commitmentAt d raw.slot raw.commitment)))
    (ht : ∀ k, d'.stagedAccountProjections.get k =
      if k = p.key then
        if commitmentAt d raw.slot raw.commitment = .finalized then none
        else some ⟨p.kind, p.payload⟩
      else d.stagedAccountProjections.get k) :
    FiledStep D d d' (.account ⟨raw, some p⟩) := by
  have hslot : p.slot = raw.slot := congrArg VersionKey.slot hm
  refine ⟨⟨?_, ?_, ?_⟩, fun q => counted_account hn hs hm⟩
  · intro q hq
    rw [hr]
    rcases (counted_account hn hs hm).mp hq with hq | hq
    · obtain ⟨row, hrow, hf⟩ := h.counted q hq
      exact ⟨row, get_put_of_absent hn hrow, hf⟩
    · rw [applied] at hq
      split at hq
      · rename_i hf
        obtain rfl := List.mem_singleton.mp hq
        exact ⟨_, by rw [hm, Table.get_put_self], hf.2⟩
      · cases hq
  · intro k r hk
    rw [ht] at hk
    rw [hs, hr]
    split at hk
    · rename_i hkp
      split at hk
      · cases hk
      · rename_i hf
        obtain rfl := hkp
        cases hk
        refine
          ⟨?_, ⟨_, by rw [hm, Table.get_put_self], hf⟩, p, _, .inr ⟨raw, rfl, hn, rfl⟩, rfl, rfl⟩
        rw [commitmentAt_eq_finalized, not_or] at hf
        change slotStatus d p.slot ≠ _
        rw [hslot]
        exact hf.2
    · obtain ⟨hst, ⟨row, hrow, hf⟩, q, c, hd, hq⟩ := h.staged k r hk
      exact ⟨hst, ⟨row, get_put_of_absent hn hrow, hf⟩, q, c, .inl hd, hq⟩
  · rintro q c (hq | hq)
    · rw [counted_account hn hs hm, hs]
      rcases h.kept q c hq with hc | hk | hdead
      · exact .inl (.inl hc)
      · refine .inr (.inl ?_)
        rw [ht, if_neg (hm ▸ h.key_ne hn hk), hk]
      · exact .inr (.inr hdead)
    · obtain ⟨rfl, rfl⟩ := (delivers_account hn).mp hq
      by_cases hf : commitmentAt d raw.slot raw.commitment = .finalized
      · refine .inl ((counted_account hn hs hm).mpr (.inr ?_))
        rw [applied, if_pos ⟨hn, hf⟩]
        exact List.mem_singleton_self _
      · refine .inr (.inl ?_)
        rw [ht, if_pos rfl, if_neg hf]

end Account

section Slot

variable {update : SlotUpdate}

theorem Settles.finalized_iff {s : UInt64} (h : Settles d update d')
    (hf : update.status ≠ .finalized) :
    slotStatus d' s = some .finalized ↔ slotStatus d s = some .finalized := by
  constructor
  · intro hs
    by_cases hu : s = update.slot
    · rw [hu, h.status_self, Option.some.injEq] at hs
      exact absurd hs hf
    · rwa [h.status_of_ne hu] at hs
  · exact fun hs => h.status_kept hs (.inr rfl)

theorem Filed.opened (h : Filed D d) (hf : update.status ≠ .finalized) (hs : Settles d update d')
    (hr : d'.rawAccountVersions = d.rawAccountVersions)
    (ht : d'.stagedAccountProjections = d.stagedAccountProjections) :
    FiledStep D d d' (.slot update) := by
  have hcount : ∀ p, Counted D d' p ↔ Counted D d p := fun p =>
    Counted.congr rfl (hs.finalized_iff hf)
  constructor
  · rw [orDelivers_of_not not_delivers_slot]
    constructor
    · intro p hp
      rw [hr]
      exact h.counted p ((hcount p).mp hp)
    · intro k r hk
      rw [ht] at hk
      rw [ne_eq, hs.finalized_iff hf, hr]
      exact h.staged k r hk
    · intro p c hp
      rw [hcount, ht]
      rcases h.kept p c hp with hc | hk | hd
      · exact .inl hc
      · exact .inr (.inl hk)
      · exact .inr (.inr (hs.status_kept hd (.inl rfl)))
  · intro p
    rw [orDelivers_of_not not_delivers_slot, applied_slot_of_ne hf, hcount]
    simp

theorem Filed.dead (h : Filed D d) (hd : update.status = .dead) (hs : Settles d update d')
    (hr : d'.rawAccountVersions = d.rawAccountVersions.deleteWhere (fun k r =>
      k.slot = update.slot ∧ r.commitment ≠ .finalized))
    (ht : d'.stagedAccountProjections = d.stagedAccountProjections.deleteWhere (fun k _ =>
      k.slot = update.slot)) : FiledStep D d d' (.slot update) := by
  have hf : update.status ≠ .finalized := by rw [hd]; decide
  have hcount : ∀ p, Counted D d' p ↔ Counted D d p := fun p =>
    Counted.congr rfl (hs.finalized_iff hf)
  constructor
  · rw [orDelivers_of_not not_delivers_slot]
    constructor
    · intro p hp
      obtain ⟨row, hrow, hfin⟩ := h.counted p ((hcount p).mp hp)
      rw [hr, Table.get_deleteWhere, hrow]
      exact ⟨row, by simp [Option.filter, hfin], hfin⟩
    · intro k r hk
      rw [ht, Table.get_deleteWhere, Option.filter_eq_some_iff] at hk
      obtain ⟨hk, hslot⟩ := hk
      obtain ⟨hst, ⟨row, hrow, hfin⟩, hdel⟩ := h.staged k r hk
      have hne : k.slot ≠ update.slot := by simpa using hslot
      rw [ne_eq, hs.finalized_iff hf, hr, Table.get_deleteWhere, hrow]
      exact ⟨hst, ⟨row, by simp [Option.filter, hne], hfin⟩, hdel⟩
    · intro p c hp
      rw [hcount, ht, Table.get_deleteWhere]
      rcases h.kept p c hp with hc | hk | hdead
      · exact .inl hc
      · by_cases hu : p.slot = update.slot
        · exact .inr (.inr (by rw [hu, hs.status_self, hd]))
        · have hu' : p.key.slot ≠ update.slot := hu
          exact .inr (.inl (by simp [hk, Option.filter, hu']))
      · exact .inr (.inr (hs.status_kept hdead (.inl rfl)))
  · intro p
    rw [orDelivers_of_not not_delivers_slot, applied_slot_of_ne hf, hcount]
    simp

/-- A finalization adds what is staged for its slot to what counts. -/
theorem counted_finalized (h : Filed D d) (hf : update.status = .finalized)
    (hs : Settles d update d') :
    Counted D d' p ↔ Counted D d p ∨ p ∈ stagedProjections d update.slot := by
  constructor
  · rintro ⟨c, hp, rfl | hfin⟩
    · exact .inl ⟨_, hp, .inl rfl⟩
    · by_cases hu : p.slot = update.slot
      · rcases h.kept p c hp with hc | hk | hdead
        · exact .inl hc
        · exact .inr (mem_stagedProjections.mpr ⟨hu, hk⟩)
        · cases (hs.status_kept hdead (.inl rfl)).symm.trans hfin
      · rw [hs.status_of_ne hu] at hfin
        exact .inl ⟨c, hp, .inr hfin⟩
  · rintro (⟨c, hp, hc⟩ | hp)
    · exact ⟨c, hp, hc.imp_right fun hfin => hs.status_kept hfin (.inr rfl)⟩
    · obtain ⟨hu, hk⟩ := mem_stagedProjections.mp hp
      obtain ⟨-, -, q, c, hq, hkey, hrow⟩ := h.staged _ _ hk
      have hpq : q = p := by
        cases p
        cases q
        simp only [DecodedProjection.key, VersionKey.mk.injEq, StagedRow.mk.injEq] at hkey hrow
        simp [hkey, hrow]
      exact ⟨c, hpq ▸ hq, .inr (by rw [hu, hs.status_self, hf])⟩

theorem Filed.finalized (h : Filed D d) (hf : update.status = .finalized) (hs : Settles d update d')
    (hr : d'.rawAccountVersions = d.rawAccountVersions.updateWhere (fun k _ =>
      k.slot = update.slot) (fun r => { r with commitment := .finalized }))
    (ht : d'.stagedAccountProjections = d.stagedAccountProjections.deleteWhere (fun k _ =>
      k.slot = update.slot)) : FiledStep D d d' (.slot update) := by
  have hcount : ∀ p, Counted D d' p ↔ Counted D d p ∨ p ∈ stagedProjections d update.slot :=
    fun p => counted_finalized h hf hs
  constructor
  · rw [orDelivers_of_not not_delivers_slot]
    constructor
    · intro p hp
      rw [hr, Table.get_updateWhere]
      rcases (hcount p).mp hp with hp | hp
      · obtain ⟨row, hrow, hfin⟩ := h.counted p hp
        rw [hrow]
        refine ⟨_, rfl, ?_⟩
        dsimp only
        split
        · rfl
        · exact hfin
      · obtain ⟨hu, hk⟩ := mem_stagedProjections.mp hp
        obtain ⟨-, ⟨row, hrow, -⟩, -⟩ := h.staged _ _ hk
        have hu' : p.key.slot = update.slot := hu
        rw [hrow]
        exact ⟨_, rfl, by simp [hu']⟩
    · intro k r hk
      rw [ht, Table.get_deleteWhere, Option.filter_eq_some_iff] at hk
      obtain ⟨hk, hslot⟩ := hk
      have hne : k.slot ≠ update.slot := by simpa using hslot
      obtain ⟨hst, ⟨row, hrow, hfin⟩, hdel⟩ := h.staged k r hk
      rw [hs.status_of_ne hne, hr, Table.get_updateWhere, hrow]
      exact ⟨hst, ⟨row, by simp [hne], hfin⟩, hdel⟩
    · intro p c hp
      rw [hcount, ht, Table.get_deleteWhere]
      rcases h.kept p c hp with hc | hk | hdead
      · exact .inl (.inl hc)
      · by_cases hu : p.slot = update.slot
        · exact .inl (.inr (mem_stagedProjections.mpr ⟨hu, hk⟩))
        · have hu' : p.key.slot ≠ update.slot := hu
          exact .inr (.inl (by simp [hk, Option.filter, hu']))
      · exact .inr (.inr (hs.status_kept hdead (.inl rfl)))
  · intro p
    rw [orDelivers_of_not not_delivers_slot, applied, if_pos hf, hcount]

end Slot

/-- Every update that goes through keeps the versions filed, and what it applies is what it adds to
what counts. -/
theorem Filed.step {update : ChainUpdate} (h : Filed D d) (hm : Matching update)
    (he : Effect d d' update) : FiledStep D d d' update := by
  cases he with
  | idle ha hd hs hv => exact h.idle ha hd hs hv.versions hv.staged
  | version hn hs hr ht _ => exact h.version hn hs hr ht
  | staged hn hs hf hr ht _ =>
    refine h.account hn hs (hm _ _ rfl) hr fun k => ?_
    rw [ht, Table.get_put, if_neg hf]
  | @published raw p hn hs hf hr ht _ =>
    refine h.account hn hs (hm _ _ rfl) (by rw [hr, hf]) fun k => ?_
    rw [ht, Table.get_deleteWhere, Table.get_put, if_pos hf]
    by_cases hk : k = p.key
    · rw [if_pos hk, if_pos hk]
      simp [Option.filter, hk]
    · rw [if_neg hk, if_neg hk]
      cases d.stagedAccountProjections.get k <;> simp [Option.filter, hk]
  | opened _ hf hs hv => exact h.opened hf hs hv.versions hv.staged
  | dead hd hs hr ht _ => exact h.dead hd hs hr ht
  | finalized hf hs hr ht _ => exact h.finalized hf hs hr ht

end Histories

end AgentBond.Indexer
