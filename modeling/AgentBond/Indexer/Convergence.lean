import AgentBond.Indexer.Filing
import Mathlib.Data.List.Induction

/-! # Convergence of the public rows

Each address shows its newest version as long as older versions come while it
shows a version of a later slot: an older one of the same slot overwrites the
newest, and after a tombstone any older one comes back.
-/

namespace AgentBond.Indexer

open Foundation

/-- The version is of a later slot, or a later one of its slot. -/
def Newer (p q : DecodedProjection) : Prop :=
  q.slot.toNat < p.slot.toNat ∨
    q.slot = p.slot ∧ q.writeVersion.toNat < p.writeVersion.toNat

/-- No version of the address is newer. -/
structure Newest (S : DecodedProjection → Prop) (p : DecodedProjection) : Prop where
  mem : S p
  not_newer : ∀ q, S q → q.address = p.address → ¬ Newer q p

/-- Each address shows its newest version, and nothing when that is a tombstone or there is none. -/
structure ShowsNewest (S : DecodedProjection → Prop) (d : Db) : Prop where
  newest : ∀ p, Newest S p → ∀ kind,
    cell d p.address kind = Register.hold p.slot.toNat (valueFor kind p.payload)
  absent : ∀ a, (∀ p, S p → p.address ≠ a) → ∀ kind, cell d a kind = none

/-- The newest version to apply for an address is newer than all before, or of an earlier slot than
a row that is shown, or the same payload again. -/
def Orderly (S : DecodedProjection → Prop) (ps : List DecodedProjection) : Prop :=
  ∀ q, Newest (· ∈ ps) q → ∀ v, Newest S v → v.address = q.address →
    Newer q v ∨ (v.payload ≠ .tombstone ∧ q.slot.toNat < v.slot.toNat) ∨ q.payload = v.payload

variable {κ : Pubkey → ProjectionKind} {S S' : DecodedProjection → Prop} {d d' : Db}
  {p q v : DecodedProjection} {ps : List DecodedProjection} {slot : UInt64} {a : Pubkey}
  {kind : ProjectionKind}

section Order

theorem Newer.trans (h : Newer p q) (h' : Newer q v) : Newer p v := by
  rcases h with h | ⟨hs, h⟩ <;> rcases h' with h' | ⟨hs', h'⟩
  · exact .inl (h'.trans h)
  · exact .inl (hs' ▸ h)
  · exact .inl (hs ▸ h')
  · exact .inr ⟨hs'.trans hs, h'.trans h⟩

theorem not_newer_self (p : DecodedProjection) : ¬ Newer p p := by
  rintro (h | ⟨-, h⟩) <;> exact lt_irrefl _ h

theorem key_eq_of_not_newer (ha : p.address = q.address) (h : ¬ Newer p q) (h' : ¬ Newer q p) :
    p.key = q.key := by
  have hs : p.slot = q.slot := by
    apply UInt64.toNat_inj.mp
    have h₁ : ¬ q.slot.toNat < p.slot.toNat := fun hlt => h (.inl hlt)
    have h₂ : ¬ p.slot.toNat < q.slot.toNat := fun hlt => h' (.inl hlt)
    omega
  have hw : p.writeVersion = q.writeVersion := by
    apply UInt64.toNat_inj.mp
    have h₁ : ¬ q.writeVersion.toNat < p.writeVersion.toNat := fun hlt =>
      h (.inr ⟨hs.symm, hlt⟩)
    have h₂ : ¬ p.writeVersion.toNat < q.writeVersion.toNat := fun hlt => h' (.inr ⟨hs, hlt⟩)
    omega
  simp only [DecodedProjection.key, ha, hs, hw]

theorem newer_or_newer (ha : p.address = q.address) (hk : p.key ≠ q.key) (h : ¬ Newer p q) :
    Newer q p := by
  by_contra h'
  exact hk (key_eq_of_not_newer ha h h')

theorem slot_le_of_newer (h : Newer p q) : q.slot.toNat ≤ p.slot.toNat := by
  rcases h with h | ⟨h, -⟩
  · exact h.le
  · exact h ▸ le_rfl

end Order

section Step

/-- Every address with a version has a newest one. -/
def HasNewest (S : DecodedProjection → Prop) : Prop :=
  ∀ p, S p → ∃ v, Newest S v ∧ v.address = p.address

/-- A batch of versions to apply: all of one slot, and of each address the newest comes last. -/
structure Batch (slot : UInt64) (ps : List DecodedProjection) : Prop where
  slot_eq : ∀ p ∈ ps, p.slot = slot
  last : ∀ p q, (ps.filter (·.address = p.address)).getLast? = some p → q ∈ ps →
    q.address = p.address → ¬ Newer q p
  unique : ∀ p ∈ ps, ∀ q ∈ ps, p.key = q.key → p = q

theorem Batch.exists_last (hb : Batch slot ps) (hp : p ∈ ps) :
    ∃ q, Newest (· ∈ ps) q ∧ q.address = p.address ∧
      (ps.filter (·.address = p.address)).getLast? = some q := by
  have hne : ps.filter (·.address = p.address) ≠ [] :=
    List.ne_nil_of_mem (List.mem_filter.mpr ⟨hp, by simp⟩)
  obtain ⟨q, hlast⟩ : ∃ q, (ps.filter (·.address = p.address)).getLast? = some q :=
    ⟨_, List.getLast?_eq_some_getLast hne⟩
  obtain ⟨hq, ha⟩ := List.mem_filter.mp (List.mem_of_getLast? hlast)
  have ha : q.address = p.address := by simpa using ha
  exact ⟨q, ⟨hq, fun r hr hra => hb.last q r (by rw [ha]; exact hlast) hr hra⟩, ha, hlast⟩

theorem Batch.newest_unique (hb : Batch slot ps) (hp : Newest (· ∈ ps) p) (hq : Newest (· ∈ ps) q)
    (ha : p.address = q.address) : p = q :=
  hb.unique p hp.mem q hq.mem
    (key_eq_of_not_newer ha (hq.not_newer p hp.mem ha) (hp.not_newer q hq.mem ha.symm))

theorem kind_eq_tombstone {payload : ProjectionPayload} :
    payload.kind = .tombstone ↔ payload = .tombstone := by
  cases payload <;> simp [ProjectionPayload.kind]

theorem valueFor_of_typed (hp : Typed κ p) : valueFor kind p.payload =
    if kind = κ p.address ∧ p.payload ≠ .tombstone then some p.payload else none := by
  have hiff : (p.payload.kind = kind ∧ kind ≠ .tombstone) ↔
      (kind = κ p.address ∧ p.payload ≠ .tombstone) := by
    rw [ne_eq, ne_eq, ← kind_eq_tombstone]
    rcases hp with hp | hp
    · rw [hp]
      constructor
      · rintro ⟨rfl, h⟩; exact absurd rfl h
      · rintro ⟨-, h⟩; exact absurd rfl h
    · rw [hp]
      constructor
      · rintro ⟨rfl, h⟩; exact ⟨rfl, h⟩
      · rintro ⟨rfl, h⟩; exact ⟨rfl, h⟩
  simp only [valueFor, hiff]

theorem write_valueFor_iff (hq : Typed κ q) (hv : Typed κ v) (ha : v.address = q.address)
    (hs : q.slot.toNat ≤ v.slot.toNat) :
    (∀ kind, Register.write (Register.hold v.slot.toNat (valueFor kind v.payload)) q.slot.toNat
        (valueFor kind q.payload) = Register.hold v.slot.toNat (valueFor kind v.payload)) ↔
      (v.payload ≠ .tombstone ∧ q.slot.toNat < v.slot.toNat) ∨ q.payload = v.payload := by
  simp only [Register.write_hold_iff hs, valueFor_of_typed hq, valueFor_of_typed hv, ha]
  constructor
  · intro h
    have hown := h (κ q.address)
    by_cases hvt : v.payload = .tombstone <;> by_cases hqt : q.payload = .tombstone
    · exact .inr (hqt.trans hvt.symm)
    · simp [hvt, hqt] at hown
    · simp only [hvt, hqt, ne_eq, not_false_eq_true, and_true, if_true, Option.isSome_some,
        true_and, not_true_eq_false, and_false, if_false, reduceCtorEq, or_false] at hown
      exact .inl ⟨hvt, hown⟩
    · simp only [hvt, hqt, ne_eq, not_false_eq_true, and_true, if_true, Option.isSome_some,
        true_and, Option.some.injEq] at hown
      exact hown.imp_left fun hlt => ⟨hvt, hlt⟩
  · rintro (⟨hvt, hlt⟩ | he) kind
    · by_cases hk : kind = κ q.address
      · exact .inl ⟨by simp [hk, hvt], hlt⟩
      · exact .inr (by simp [hk])
    · exact .inr (by rw [he])

section Union

variable (hS : ∀ p, S' p ↔ S p ∨ p ∈ ps)

include hS

theorem Newest.of_union (h : Newest S' p) (hp : S p) : Newest S p :=
  ⟨hp, fun q hq => h.not_newer q ((hS q).mpr (.inl hq))⟩

theorem Newest.of_union_batch (h : Newest S' p) (hp : p ∈ ps) : Newest (· ∈ ps) p :=
  ⟨hp, fun q hq => h.not_newer q ((hS q).mpr (.inr hq))⟩

/-- The newer of the newest version so far and the newest of a batch. -/
theorem Newest.union_left (hv : Newest S v) (h : ∀ q, Newest (· ∈ ps) q → q.address = v.address →
    Newer v q) (hb : Batch slot ps) : Newest S' v := by
  refine ⟨(hS v).mpr (.inl hv.mem), fun r hr hra hnewer => ?_⟩
  rcases (hS r).mp hr with hr | hr
  · exact hv.not_newer r hr hra hnewer
  · obtain ⟨q, hq, hqa, -⟩ := hb.exists_last hr
    have hvq := h q hq (hqa.trans hra)
    exact hq.not_newer r hr hqa.symm (hnewer.trans hvq)

theorem Newest.union_right (hq : Newest (· ∈ ps) q) (hn : HasNewest S)
    (h : ∀ v, Newest S v → v.address = q.address → Newer q v) : Newest S' q := by
  refine ⟨(hS q).mpr (.inr hq.mem), fun r hr hra hnewer => ?_⟩
  rcases (hS r).mp hr with hr | hr
  · obtain ⟨v, hv, hva⟩ := hn r hr
    exact hv.not_newer r hr hva.symm (hnewer.trans (h v hv (hva.trans hra)))
  · exact hq.not_newer r hr hra hnewer

end Union

theorem HasNewest.union (hn : HasNewest S) (hb : Batch slot ps) (hS : ∀ p, S' p ↔ S p ∨ p ∈ ps)
    (hk : ∀ p ∈ ps, ∀ v, S v → p.key ≠ v.key) : HasNewest S' := by
  -- The newest version so far of an address of the batch is newer or older than the batch's.
  have hleft : ∀ p, S p → ∃ v, Newest S' v ∧ v.address = p.address := by
    intro p hp
    obtain ⟨v, hv, hva⟩ := hn p hp
    by_cases hq : ∃ q, Newest (· ∈ ps) q ∧ q.address = v.address ∧ Newer q v
    · obtain ⟨q, hq, hqa, hnewer⟩ := hq
      refine ⟨q, hq.union_right hS hn fun v' hv' hva' => ?_, hqa.trans hva⟩
      by_contra hno
      have := newer_or_newer hva'.symm (hk q hq.mem v' hv'.mem) hno
      exact hv.not_newer v' hv'.mem (hva'.trans hqa) (this.trans hnewer)
    · refine ⟨v, hv.union_left hS (fun q hq' hqa => ?_) hb, hva⟩
      by_contra hno
      exact hq ⟨q, hq', hqa, newer_or_newer hqa.symm (hk q hq'.mem v hv.mem).symm hno⟩
  intro p hp
  rcases (hS p).mp hp with hp | hp
  · exact hleft p hp
  · obtain ⟨q, hq, hqa, -⟩ := hb.exists_last hp
    by_cases hv : ∃ v, S v ∧ v.address = q.address
    · obtain ⟨v, hv, hva⟩ := hv
      obtain ⟨w, hw, hwa⟩ := hleft v hv
      exact ⟨w, hw, hwa.trans (hva.trans hqa)⟩
    · exact ⟨q, hq.union_right hS hn fun v hv' hva => absurd ⟨v, hv'.mem, hva⟩ hv, hqa⟩

/-- A batch keeps the newest versions shown exactly when it is orderly. -/
theorem showsNewest_iff (h : ShowsNewest S d) (hn : HasNewest S) (hb : Batch slot ps)
    (hS : ∀ p, S' p ↔ S p ∨ p ∈ ps) (ht : ∀ p, S' p → Typed κ p)
    (hk : ∀ p ∈ ps, ∀ v, S v → p.key ≠ v.key)
    (hc : ∀ a kind, cell d' a kind = writes a kind ps (cell d a kind)) :
    ShowsNewest S' d' ↔ Orderly S ps := by
  -- An address of the batch: what it shows is written by the newest version of the batch.
  have hbatch : ∀ {q}, Newest (· ∈ ps) q → ∀ kind, cell d' q.address kind =
      Register.write (cell d q.address kind) q.slot.toNat (valueFor kind q.payload) := by
    intro q hq kind
    obtain ⟨r, hr, hra, hlast⟩ := hb.exists_last hq.mem
    obtain rfl := hb.newest_unique hr hq hra
    rw [hc, writes_of_getLast? hb.slot_eq hlast, hb.slot_eq r hr.mem]
  constructor
  · intro h' q hq v hv hva
    by_cases hnewer : Newer q v
    · exact .inl hnewer
    · have hvq := newer_or_newer hva.symm (hk q hq.mem v hv.mem) hnewer
      have hv' : Newest S' v := hv.union_left hS (fun r hr hra => by
        rwa [hb.newest_unique hr hq (hra.trans hva)]) hb
      refine .inr ((write_valueFor_iff (ht q ((hS q).mpr (.inr hq.mem))) (ht v hv'.mem) hva
        (slot_le_of_newer hvq)).mp fun kind => ?_)
      rw [← h.newest v hv kind, hva, ← hbatch hq kind, ← hva, h'.newest v hv' kind,
        h.newest v hv kind]
  · intro ho
    refine ⟨fun p hp kind => ?_, fun a ha kind => ?_⟩
    · rcases (hS p).mp hp.mem with hmem | hmem
      · have hpS := hp.of_union hS hmem
        by_cases hq : ∃ q ∈ ps, q.address = p.address
        · obtain ⟨r, hr, hra⟩ := hq
          obtain ⟨q, hq, hqa, -⟩ := hb.exists_last hr
          have hqS := (hS q).mpr (.inr hq.mem)
          have hqp := hqa.trans hra
          have hno := hp.not_newer q hqS hqp
          have hpq := newer_or_newer hqp (hk q hq.mem p hmem) hno
          have hkeep := (write_valueFor_iff (ht q hqS) (ht p hp.mem) hqp.symm
            (slot_le_of_newer hpq)).mpr ((ho q hq p hpS hqp.symm).resolve_left hno)
          rw [← hqp, hbatch hq, hqp, h.newest p hpS, hkeep]
        · rw [hc, writes_of_none fun q hqm hqa => hq ⟨q, hqm, hqa⟩, h.newest p hpS]
      · have hpp := hp.of_union_batch hS hmem
        rw [hbatch hpp]
        by_cases hv : ∃ v, S v ∧ v.address = p.address
        · obtain ⟨r, hr, hra⟩ := hv
          obtain ⟨v, hv, hva⟩ := hn r hr
          have hvp := hva.trans hra
          have hpv := newer_or_newer hvp (hk p hmem v hv.mem).symm
            (hp.not_newer v ((hS v).mpr (.inl hv.mem)) hvp)
          rw [← hvp, h.newest v hv, Register.write_hold (slot_le_of_newer hpv)]
        · rw [h.absent p.address (fun v hv' hva => hv ⟨v, hv', hva⟩), Register.write_none]
    · rw [hc, writes_of_none fun p hp => ha p ((hS p).mpr (.inr hp)),
        h.absent a fun p hp => ha p ((hS p).mpr (.inl hp))]

end Step

section Applied

variable {update : ChainUpdate} {D : DecodedProjection → Commitment → Prop}

instance : Std.Total stagedBefore where
  total a b := by
    rcases bytes_lt_trichotomy a.1.address.toList b.1.address.toList with h | h | h
    · exact .inl (.inl h)
    · have ha := List.Vector.eq _ _ h
      rcases Nat.le_total a.1.writeVersion.toNat b.1.writeVersion.toNat with hw | hw
      · exact .inl (.inr ⟨ha, UInt64.le_iff_toNat_le.mpr hw⟩)
      · exact .inr (.inr ⟨ha.symm, UInt64.le_iff_toNat_le.mpr hw⟩)
    · exact .inr (.inl h)

instance : IsTrans (VersionKey × StagedRow) stagedBefore where
  trans a b c := by
    rintro (h | ⟨ha, h⟩) (h' | ⟨ha', h'⟩)
    · exact .inl (List.lt_trans h h')
    · exact .inl (ha' ▸ h)
    · exact .inl (ha ▸ h')
    · exact .inr ⟨ha.trans ha', UInt64.le_trans h h'⟩

theorem pairwise_stagedProjections (d : Db) (slot : UInt64) :
    (stagedProjections d slot).Pairwise fun p q =>
      p.address = q.address → p.writeVersion ≤ q.writeVersion := by
  rw [stagedProjections, List.pairwise_map]
  refine (List.pairwise_insertionSort stagedBefore _).imp ?_
  rintro e e' (h | ⟨-, h⟩) ha
  · rw [show e.1.address = e'.1.address from ha] at h
    exact absurd h (List.lt_irrefl _)
  · exact h

theorem batch_nil : Batch slot [] :=
  ⟨by simp, by simp, by simp⟩

theorem batch_stagedProjections (d : Db) (slot : UInt64) :
    Batch slot (stagedProjections d slot) where
  slot_eq := fun _ hp => (mem_stagedProjections.mp hp).1
  last := by
    intro p q hlast hq hqa
    obtain ⟨before, hfilter⟩ := List.getLast?_eq_some_iff.mp hlast
    have hp : p ∈ stagedProjections d slot := List.mem_of_mem_filter (List.mem_of_getLast? hlast)
    have hqf : q ∈ before ++ [p] := by
      rw [← hfilter]
      exact List.mem_filter.mpr ⟨hq, by simpa using hqa⟩
    have hpair := (pairwise_stagedProjections d slot).sublist
      (List.filter_sublist (p := fun r => decide (r.address = p.address)))
    rw [hfilter] at hpair
    have hslots : q.slot = p.slot :=
      (mem_stagedProjections.mp hq).1.trans (mem_stagedProjections.mp hp).1.symm
    rcases List.mem_append.mp hqf with hb | hb
    · have hle := UInt64.le_iff_toNat_le.mp ((List.pairwise_append.mp hpair).2.2 q hb p
        (List.mem_singleton_self p) hqa)
      rintro (hlt | ⟨-, hlt⟩)
      · rw [hslots] at hlt
        exact lt_irrefl _ hlt
      · omega
    · obtain rfl := List.mem_singleton.mp hb
      exact not_newer_self q
  unique := by
    intro p hp q hq hk
    have hp := (mem_stagedProjections.mp hp).2
    have hq := (mem_stagedProjections.mp hq).2
    rw [hk, hq] at hp
    cases p
    cases q
    simp only [DecodedProjection.key, VersionKey.mk.injEq, Option.some.injEq,
      StagedRow.mk.injEq] at hk hp
    simp [hk, hp]

theorem batch_singleton (p : DecodedProjection) : Batch p.slot [p] where
  slot_eq := by simp
  last := by
    intro q r hlast hr _
    have hq := List.mem_of_mem_filter (List.mem_of_getLast? hlast)
    rw [List.mem_singleton] at hq hr
    rw [hq, hr]
    exact not_newer_self p
  unique := by simp

theorem batch_applied (d : Db) (update : ChainUpdate) : ∃ slot, Batch slot (applied d update) := by
  match update with
  | .account ⟨raw, some p⟩ =>
    rw [applied]
    split
    · exact ⟨_, batch_singleton p⟩
    · exact ⟨0, batch_nil⟩
  | .account ⟨raw, none⟩ => exact ⟨0, batch_nil⟩
  | .slot update =>
    rw [applied]
    split
    · exact ⟨_, batch_stagedProjections d update.slot⟩
    · exact ⟨0, batch_nil⟩
  | .events evs => exact ⟨0, batch_nil⟩

theorem Filed.key_ne_of_applied (h : Filed D d) (hm : Matching update) (hp : p ∈ applied d update)
    (hv : Counted D d v) : p.key ≠ v.key := by
  intro hk
  obtain ⟨row, hrow, hf⟩ := h.counted v hv
  rw [← hk] at hrow
  match update with
  | .account ⟨raw, some q⟩ =>
    rw [applied] at hp
    split at hp
    · rename_i hnew
      obtain rfl := List.mem_singleton.mp hp
      rw [hm raw p rfl, hnew.1] at hrow
      cases hrow
    · cases hp
  | .account ⟨raw, none⟩ => cases hp
  | .slot update =>
    rw [applied] at hp
    split at hp
    · obtain ⟨-, ⟨row', hrow', hf'⟩, -⟩ := h.staged _ _ (mem_stagedProjections.mp hp).2
      rw [hrow] at hrow'
      cases hrow'
      exact hf' hf
    · cases hp
  | .events evs => cases hp

/-- The public rows after an update are those before, written with what it applies. -/
theorem cells_of_effect (he : Effect d d' update) (hd : WellTyped κ d)
    (hp : ∀ p ∈ applied d update, Typed κ p) :
    WellTyped κ d' ∧ ∀ a kind,
      cell d' a kind = writes a kind (applied d update) (cell d a kind) := by
  have hsame : applied d update = [] → (∀ a kind, cell d' a kind = cell d a kind) →
      WellTyped κ d' ∧
        ∀ a kind, cell d' a kind = writes a kind (applied d update) (cell d a kind) := by
    intro hnil hcell
    refine ⟨fun a kind hk => (hcell a kind).trans (hd a kind hk), fun a kind => ?_⟩
    rw [hnil, hcell]
    rfl
  have hall : ∀ ps, applied d update = ps →
      (∀ a kind, cell d' a kind = cell (projectAll d ps) a kind) →
      WellTyped κ d' ∧
        ∀ a kind, cell d' a kind = writes a kind (applied d update) (cell d a kind) := by
    rintro ps rfl hcell
    refine ⟨fun a kind hk => ?_, fun a kind => ?_⟩
    · rw [hcell, hd.projectAll hp a kind hk]
    · rw [hcell, cell_projectAll hd hp]
  cases he with
  | idle ha _ _ hv => exact hsame ha hv.cells
  | version _ _ _ _ hv => exact hsame rfl hv
  | staged hn _ hf _ _ hv => exact hsame (if_neg fun h => hf h.2) hv
  | published hn _ hf _ _ hv => exact hall _ (if_pos ⟨hn, hf⟩) hv
  | opened _ hf _ hv => exact hsame (if_neg hf) hv.cells
  | dead hd _ _ _ hv => exact hsame (if_neg (by rw [hd]; decide)) hv
  | finalized hf _ _ _ hv => exact hall _ (if_pos hf) hv

end Applied

/-! ## Runs -/

section Run

variable {tr : List (Transition Engine ChainUpdate)} {x : Transition Engine ChainUpdate}
  {e : Engine} {c : Commitment}

/-- Some transition delivers the version, with this commitment. -/
def DeliveredIn (tr : List (Transition Engine ChainUpdate)) (p : DecodedProjection)
    (c : Commitment) : Prop :=
  ∃ x ∈ tr, Delivers x.source.db x.label p c

theorem deliveredIn_snoc :
    DeliveredIn (tr ++ [x]) = orDelivers (DeliveredIn tr) x.source.db x.label := by
  funext p c
  simp only [DeliveredIn, orDelivers, List.mem_append, List.mem_singleton, or_and_right, exists_or,
    exists_eq_left]

/-- The versions that count after a trace: those delivered as finalized, or for slots that are
finalized. -/
def Finalized (tr : List (Transition Engine ChainUpdate)) (e : Engine) : DecodedProjection → Prop :=
  Counted (DeliveredIn tr) e.db

/-- The public rows show the newest versions in every state. -/
def Converges (tr : List (Transition Engine ChainUpdate)) : Prop :=
  AlongTrace (fun tr₁ x => ShowsNewest (Finalized (tr₁ ++ [x]) x.target) x.target.db) tr

/-- Every update applies its versions in order. -/
def OrderlyRun (tr : List (Transition Engine ChainUpdate)) : Prop :=
  AlongTrace (fun tr₁ x =>
    Orderly (Finalized tr₁ x.source) (applied x.source.db x.label)) tr

/-- Every version comes with its own projection, and the accounts of an address are of one kind. -/
structure WellFormed (κ : Pubkey → ProjectionKind) (tr : List (Transition Engine ChainUpdate)) :
    Prop where
  matching : ∀ x ∈ tr, Matching x.label
  typed : ∀ x ∈ tr, ∀ raw p, x.label = .account ⟨raw, some p⟩ → Typed κ p

/-- What holds after every run. -/
structure Consistent (κ : Pubkey → ProjectionKind) (tr : List (Transition Engine ChainUpdate))
    (e : Engine) : Prop where
  filed : Filed (DeliveredIn tr) e.db
  typed : WellTyped κ e.db
  hasNewest : HasNewest (Finalized tr e)

theorem consistent_start (κ : Pubkey → ProjectionKind) : Consistent κ [] Fork.start ∧
    ShowsNewest (Finalized [] Fork.start) Fork.start.db := by
  have hnone : ∀ p, ¬ Finalized [] Fork.start p := by
    rintro p ⟨_, ⟨x, hx, -⟩, -⟩
    cases hx
  have hcell : ∀ a kind, cell Fork.start.db a kind = none := fun a kind => by cases kind <;> rfl
  refine ⟨⟨⟨fun p hp => absurd hp (hnone p), fun k r hk => (by cases hk), ?_⟩,
    fun a kind _ => hcell a kind, fun p hp => absurd hp (hnone p)⟩,
    fun p hp => absurd hp.mem (hnone p), fun a _ kind => hcell a kind⟩
  rintro p c ⟨x, hx, -⟩
  cases hx

theorem WellFormed.typed_of_finalized (hw : WellFormed κ tr) (hp : Finalized tr e p) :
    Typed κ p := by
  obtain ⟨c, ⟨x, hx, raw, hlabel, -⟩, -⟩ := hp
  exact hw.typed x hx raw p hlabel

theorem Consistent.snoc (h : Consistent κ tr x.source) (hx : Ingests x.source x.label x.target)
    (hw : WellFormed κ (tr ++ [x])) : Consistent κ (tr ++ [x]) x.target ∧
      (ShowsNewest (Finalized tr x.source) x.source.db →
        (ShowsNewest (Finalized (tr ++ [x]) x.target) x.target.db ↔
          Orderly (Finalized tr x.source) (applied x.source.db x.label))) := by
  have hm := hw.matching x (List.mem_append_right _ (List.mem_singleton_self x))
  have heffect := effect_of_ingests hx
  obtain ⟨hfiled, hcounted⟩ := h.filed.step hm heffect
  rw [← deliveredIn_snoc] at hfiled hcounted
  have htyped : ∀ p, Finalized (tr ++ [x]) x.target p → Typed κ p := fun p =>
    hw.typed_of_finalized
  obtain ⟨hcells, hwrites⟩ := cells_of_effect heffect h.typed fun p hp =>
    htyped p ((hcounted p).mpr (.inr hp))
  obtain ⟨slot, hb⟩ := batch_applied x.source.db x.label
  have hkeys : ∀ p ∈ applied x.source.db x.label, ∀ v, Finalized tr x.source v → p.key ≠ v.key :=
    fun p hp v hv => h.filed.key_ne_of_applied hm hp hv
  exact ⟨⟨hfiled, hcells, h.hasNewest.union hb hcounted hkeys⟩, fun hshows =>
    showsNewest_iff hshows h.hasNewest hb hcounted htyped hkeys hwrites⟩

theorem WellFormed.of_append {tr' : List (Transition Engine ChainUpdate)}
    (h : WellFormed κ (tr ++ tr')) : WellFormed κ tr :=
  ⟨fun x hx => h.matching x (List.mem_append_left _ hx),
    fun x hx => h.typed x (List.mem_append_left _ hx)⟩

theorem consistent_of_run (h : Run Ingests Fork.start tr e) (hw : WellFormed κ tr) :
    Consistent κ tr e ∧ (Converges tr → ShowsNewest (Finalized tr e) e.db) ∧
      (Converges tr ↔ OrderlyRun tr) := by
  induction tr using List.reverseRecOn generalizing e with
  | nil =>
    obtain rfl : Fork.start = e := h
    obtain ⟨hc, hs⟩ := consistent_start κ
    exact ⟨hc, fun _ => hs, iff_of_true alongTrace_nil alongTrace_nil⟩
  | append_singleton tr x ih =>
    obtain ⟨t, hrun, rfl, hx, rfl⟩ := Run.append_iff.mp h
    obtain ⟨hc, hshows, hiff⟩ := ih hrun hw.of_append
    obtain ⟨hc', hstep⟩ := hc.snoc hx hw
    rw [Converges, OrderlyRun, alongTrace_snoc, alongTrace_snoc]
    refine ⟨hc', And.right, ?_⟩
    constructor
    · rintro ⟨hconverges, hlast⟩
      exact ⟨hiff.mp hconverges, (hstep (hshows hconverges)).mp hlast⟩
    · rintro ⟨horderly, hlast⟩
      have hconverges := hiff.mpr horderly
      exact ⟨hconverges, (hstep (hshows hconverges)).mpr hlast⟩

theorem ShowsNewest.cell_eq (h : ShowsNewest S d) (h' : ShowsNewest S d') (hn : HasNewest S)
    (a : Pubkey) (kind : ProjectionKind) : cell d a kind = cell d' a kind := by
  by_cases ha : ∃ p, S p ∧ p.address = a
  · obtain ⟨p, hp, rfl⟩ := ha
    obtain ⟨v, hv, hva⟩ := hn p hp
    rw [← hva, h.newest v hv, h'.newest v hv]
  · have hno : ∀ p, S p → p.address ≠ a := fun p hp hpa => ha ⟨p, hp, hpa⟩
    rw [h.absent a hno, h'.absent a hno]

/-- The public rows show the newest versions in every state of a run exactly when every update
applies its versions in order. Two such runs with the same finalized versions end in equal rows. -/
theorem projections_converge_iff (h : Run Ingests Fork.start tr e) (hw : WellFormed κ tr) :
    (Converges tr ↔ OrderlyRun tr) ∧
      ∀ tr' e', Run Ingests Fork.start tr' e' → WellFormed κ tr' → OrderlyRun tr → OrderlyRun tr' →
        Finalized tr' e' = Finalized tr e → ∀ a kind, cell e'.db a kind = cell e.db a kind := by
  obtain ⟨hc, hshows, hiff⟩ := consistent_of_run h hw
  refine ⟨hiff, fun tr' e' h' hw' ho ho' hsame a kind => ?_⟩
  obtain ⟨hc', hshows', hiff'⟩ := consistent_of_run h' hw'
  have hs' := hshows' (hiff'.mpr ho')
  rw [hsame] at hs'
  exact hs'.cell_eq (hshows (hiff.mpr ho)) hc.hasNewest a kind

end Run

namespace Fork

theorem ingests_of_isOk {e : Engine} {update : ChainUpdate}
    (h : (ingestUpdate e update).2.isOk = true) : Ingests e update (ingestUpdate e update).1 := by
  rcases hr : ingestUpdate e update with ⟨e', _ | gap⟩
  · rw [hr] at h
    cases h
  · exact ⟨gap, hr⟩

/-- Every update of the list goes through. -/
def goesThrough (e : Engine) : List ChainUpdate → Bool
  | [] => true
  | update :: updates =>
    (ingestUpdate e update).2.isOk && goesThrough (ingestUpdate e update).1 updates

theorem run_of_goesThrough {e : Engine} {updates : List ChainUpdate}
    (h : goesThrough e updates = true) : Run Ingests e (follow e updates) (arrive e updates) := by
  induction updates generalizing e with
  | nil => exact rfl
  | cons update updates ih =>
    rw [goesThrough, Bool.and_eq_true] at h
    exact ⟨rfl, ingests_of_isOk h.1, ih h.2⟩

def activeRow : ProjectionPayload :=
  .provider { authority := zeroKey, status := "Active", executionKeyCount := 0 }

/-- A version of one provider. -/
def projection (slot writeVersion : UInt64) (payload : ProjectionPayload) : DecodedProjection :=
  { kind := .provider, address := zeroKey, slot, writeVersion, payload }

def version (slot writeVersion : UInt64) (payload : ProjectionPayload) : ChainUpdate :=
  .account
    { raw := { address := zeroKey, slot, writeVersion, owner := none, lamports := 0,
               executable := false, data := none, deleted := false, commitment := .processed }
      projection := some (projection slot writeVersion payload) }

/-- The provider is registered in slot 5 and closed in slot 10, which are finalized in order. -/
def closed : List ChainUpdate :=
  [slotUpdate 5 none .processed, version 5 1 activeRow, slotUpdate 5 none .finalized,
    slotUpdate 10 none .processed, version 10 2 .tombstone, slotUpdate 10 none .finalized]

/-- The registration is delivered last. -/
def revived : List ChainUpdate :=
  [slotUpdate 5 none .finalized, slotUpdate 10 none .processed, version 10 2 .tombstone,
    slotUpdate 10 none .finalized, version 5 1 activeRow]

theorem label_mem_of_mem_follow {e : Engine} {updates : List ChainUpdate}
    {x : Transition Engine ChainUpdate} (hx : x ∈ follow e updates) : x.label ∈ updates := by
  induction updates generalizing e with
  | nil => cases hx
  | cons update updates ih =>
    rcases List.mem_cons.mp hx with rfl | hx
    · exact List.mem_cons_self
    · exact List.mem_cons_of_mem _ (ih hx)

theorem wellFormed_follow {e : Engine} {updates : List ChainUpdate}
    (h : ∀ update ∈ updates, (∃ s par c, update = slotUpdate s par c) ∨
      ∃ s w payload, update = version s w payload ∧
        (payload = .tombstone ∨ payload = activeRow)) :
    WellFormed (fun _ => .provider) (follow e updates) := by
  constructor
  · intro x hx raw p hp
    rcases h _ (label_mem_of_mem_follow hx) with ⟨s, par, c, hs⟩ | ⟨s, w, payload, hv, -⟩
    · rw [hs] at hp
      cases hp
    · rw [hv] at hp
      cases hp
      rfl
  · intro x hx raw p hp
    rcases h _ (label_mem_of_mem_follow hx) with ⟨s, par, c, hs⟩ | ⟨s, w, payload, hv, hpay⟩
    · rw [hs] at hp
      cases hp
    · rw [hv] at hp
      cases hp
      rcases hpay with rfl | rfl
      · exact .inl rfl
      · exact .inr rfl

theorem run_closed : Run Ingests start (follow start closed) (arrive start closed) :=
  run_of_goesThrough (by decide)

theorem run_revived : Run Ingests start (follow start revived) (arrive start revived) :=
  run_of_goesThrough (by decide)

theorem wellFormed_closed : WellFormed (fun _ => .provider) (follow start closed) := by
  apply wellFormed_follow
  simp only [closed, List.mem_cons, List.not_mem_nil, or_false]
  rintro update (rfl | rfl | rfl | rfl | rfl | rfl)
  · exact .inl ⟨_, _, _, rfl⟩
  · exact .inr ⟨_, _, _, rfl, .inr rfl⟩
  · exact .inl ⟨_, _, _, rfl⟩
  · exact .inl ⟨_, _, _, rfl⟩
  · exact .inr ⟨_, _, _, rfl, .inl rfl⟩
  · exact .inl ⟨_, _, _, rfl⟩

theorem wellFormed_revived : WellFormed (fun _ => .provider) (follow start revived) := by
  apply wellFormed_follow
  simp only [revived, List.mem_cons, List.not_mem_nil, or_false]
  rintro update (rfl | rfl | rfl | rfl | rfl)
  · exact .inl ⟨_, _, _, rfl⟩
  · exact .inl ⟨_, _, _, rfl⟩
  · exact .inr ⟨_, _, _, rfl, .inl rfl⟩
  · exact .inl ⟨_, _, _, rfl⟩
  · exact .inr ⟨_, _, _, rfl, .inr rfl⟩

theorem newer_of_finalized (updates : List ChainUpdate) {e : Engine} {q v : DecodedProjection}
    (hupdates : ∀ update ∈ updates, (∃ s par c, update = slotUpdate s par c) ∨
      ∃ s w payload, update = version s w payload ∧ s ≤ q.slot)
    (hq : slotStatus e.db q.slot ≠ some .finalized)
    (hv : Finalized (follow start updates) e v) : Newer q v := by
  obtain ⟨c, ⟨x, hx, raw, hlabel, -, rfl⟩, hc⟩ := hv
  have hx := label_mem_of_mem_follow hx
  rcases hupdates _ hx with ⟨s, par, c, hs⟩ | ⟨s, w, payload, hv, hle⟩
  · rw [hs] at hlabel
    cases hlabel
  · rw [hv] at hlabel
    cases hlabel
    rcases hc with hc | hc
    · cases hc
    · refine .inl (lt_of_le_of_ne (UInt64.le_iff_toNat_le.mp hle) fun he => hq ?_)
      rw [← UInt64.toNat_inj.mp he]
      exact hc

theorem orderly_of_nil {S : DecodedProjection → Prop} {ps : List DecodedProjection}
    (h : ps = []) : Orderly S ps := by
  subst h
  intro q hq
  cases hq.mem

theorem orderly_of_singleton {S : DecodedProjection → Prop} {ps : List DecodedProjection}
    {p : DecodedProjection} (h : ps = [p]) (hS : ∀ v, S v → Newer p v) : Orderly S ps := by
  subst h
  intro q hq v hv _
  rw [List.mem_singleton.mp hq.mem]
  exact .inl (hS v hv.mem)

theorem orderlyRun_closed : OrderlyRun (follow start closed) := by
  unfold OrderlyRun
  simp only [closed, follow, alongTrace_cons]
  refine ⟨orderly_of_nil ?_, orderly_of_nil ?_,
    orderly_of_singleton (p := projection 5 1 activeRow) ?_ ?_, orderly_of_nil ?_,
    orderly_of_nil ?_, orderly_of_singleton (p := projection 10 2 .tombstone) ?_ ?_,
    alongTrace_nil⟩
  · decide
  · decide
  · decide
  · intro v hv
    refine newer_of_finalized (closed.take 2) ?_ (by decide) hv
    simp only [closed, List.take_succ_cons, List.take_zero, List.mem_cons, List.not_mem_nil,
      or_false]
    rintro update (rfl | rfl)
    · exact .inl ⟨_, _, _, rfl⟩
    · exact .inr ⟨_, _, _, rfl, by decide⟩
  · decide
  · decide
  · decide
  · intro v hv
    refine newer_of_finalized (closed.take 5) ?_ (by decide) hv
    simp only [closed, List.take_succ_cons, List.take_zero, List.mem_cons, List.not_mem_nil,
      or_false]
    rintro update (rfl | rfl | rfl | rfl | rfl)
    · exact .inl ⟨_, _, _, rfl⟩
    · exact .inr ⟨_, _, _, rfl, by decide⟩
    · exact .inl ⟨_, _, _, rfl⟩
    · exact .inl ⟨_, _, _, rfl⟩
    · exact .inr ⟨_, _, _, rfl, by decide⟩

theorem projections_converge_closed : Converges (follow start closed) :=
  (projections_converge_iff run_closed wellFormed_closed).1.mpr orderlyRun_closed

/-- The closed provider is shown again. -/
theorem projections_diverge : ¬ ∀ (tr : List (Transition Engine ChainUpdate)) (e : Engine),
    Run Ingests start tr e → WellFormed (fun _ => .provider) tr →
      ShowsNewest (Finalized tr e) e.db := by
  intro h
  have hshows := h _ _ run_revived wellFormed_revived
  have hstaged : (⟨arrive start (revived.take 2), version 10 2 .tombstone,
      arrive start (revived.take 3)⟩ : Transition Engine ChainUpdate) ∈ follow start revived :=
    List.mem_cons_of_mem _ (List.mem_cons_of_mem _ List.mem_cons_self)
  have hcounts : Finalized (follow start revived) (arrive start revived)
      (projection 10 2 .tombstone) :=
    ⟨.processed, ⟨_, hstaged, _, rfl, by decide +kernel, rfl⟩, .inr (by decide +kernel)⟩
  have hnewest : Newest (Finalized (follow start revived) (arrive start revived))
      (projection 10 2 .tombstone) := by
    refine ⟨hcounts, fun v hv _ => ?_⟩
    obtain ⟨c, ⟨x, hx, raw, hlabel, -⟩, -⟩ := hv
    have hx := label_mem_of_mem_follow hx
    simp only [revived, List.mem_cons, List.not_mem_nil, or_false] at hx
    rcases hx with hx | hx | hx | hx | hx <;> rw [hx] at hlabel <;> cases hlabel
    · exact not_newer_self _
    · rintro (hlt | ⟨hs, -⟩)
      · exact absurd hlt (by decide)
      · exact absurd hs (by decide)
  have hcell := hshows.newest _ hnewest .provider
  exact absurd hcell (by decide +kernel)

end Fork

end AgentBond.Indexer
