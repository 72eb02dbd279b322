import AgentBond.Payments.Remembering

/-! # The size of the memory store

A transaction that is begun takes an entry of the map. When the map is full a
finished entry makes room for it, and no entry that is being settled does: where
all of them are, the map grows beyond its bound.
-/

namespace AgentBond.Payments.Memory

open Foundation

/-- If the map is full, a finished entry can make room. -/
def Roomy (m : Entries) : Call → Prop
  | .begin now _ digest _ _ =>
    Full now digest m → ∃ k s, (evict now m).get k = some s ∧ s.isSettling = false
  | _ => True

/-- Entries under leases that have not expired stay, or their holder settles them or gives them
up. -/
def KeepsLeases (m : Entries) (c : Call) (m' : Entries) : Prop :=
  ∀ k b l started, m.get k = some (.settling b l started) → c.now - started ≤ leaseTtl →
    m'.get k = some (.settling b l started) ∨
      (∃ result, c = .complete c.now k b l result (.ok ()) ∧
        m'.get k = some (.settled b result c.now)) ∨
      (c = .fail c.now k b l (.ok ()) ∧ m'.get k = some (.failed b c.now))

section Steps

variable {m m' : Entries} {now started : ℕ} {digest k : Text} {lease l : LeaseToken}
  {b binding : SettlementBinding} {result : PaidDemoResult} {r : Paid BeginOutcome}
  {u : Paid Unit}

theorem length_evict_le : (evict now m).rows.length ≤ m.rows.length :=
  List.length_filter_le ..

theorem begin_rows (h : begin now lease digest binding m = (m', r)) :
    (∃ s, (evict now m).get digest = some s ∧
        (m' = evict now m ∨ ∃ s', m' = (evict now m).put digest s')) ∨
      (evict now m).get digest = none ∧
        m' = (makeRoom now (evict now m)).put digest (.settling binding lease now) := by
  unfold begin at h
  dsimp only at h
  split at h
  · rename_i hget
    refine .inl ⟨_, hget, ?_⟩
    split at h
    · cases h
      exact .inl rfl
    · cases h
      exact .inl rfl
  · rename_i hget
    refine .inl ⟨_, hget, ?_⟩
    split at h
    · cases h
      exact .inl rfl
    · split at h
      · cases h
        exact .inr ⟨_, rfl⟩
      · cases h
        exact .inl rfl
  · rename_i hget
    refine .inl ⟨_, hget, ?_⟩
    split at h
    · cases h
      exact .inl rfl
    · split at h
      · cases h
        exact .inl rfl
      · cases h
        exact .inr ⟨_, rfl⟩
  · rename_i hget
    cases h
    exact .inr ⟨hget, rfl⟩

theorem length_makeRoom_lt {s : State} (hget : m.get k = some s) (hs : s.isSettling = false)
    (hlen : m.rows.length ≤ maxEntries) : (makeRoom now m).rows.length < maxEntries := by
  unfold makeRoom
  split
  · unfold evictOneTargeted
    split
    · rename_i e hold
      obtain ⟨s', hget', -⟩ := mem_finished.mp (oldest_spec hold).1
      have hlt := Table.length_deleteWhere_lt (p := fun k _ => k = e.1) hget' (by simp)
      omega
    · rename_i hnone
      have hmem : (k, now - s.since) ∈ finished now m := mem_finished.mpr ⟨s, hget, hs, rfl⟩
      rw [oldest_eq_none hnone] at hmem
      cases hmem
  · omega

theorem makeRoom_of_settling (h : ∀ k s, m.get k = some s → s.isSettling = true) :
    makeRoom now m = m := by
  have hnone : oldest (finished now m) = none := by
    cases hold : oldest (finished now m) with
    | none => rfl
    | some e =>
      obtain ⟨s, hget, hs, -⟩ := mem_finished.mp (oldest_spec hold).1
      cases (h _ s hget).symm.trans hs
  unfold makeRoom evictOneTargeted
  rw [hnone, ite_self]

theorem get_makeRoom_none (h : m.get k = none) : (makeRoom now m).get k = none := by
  rcases get_makeRoom now m k with hk | hk
  · rw [hk, h]
  · exact hk

theorem length_begin (hlen : m.rows.length ≤ maxEntries)
    (h : begin now lease digest binding m = (m', r)) :
    m'.rows.length ≤ maxEntries ↔ Roomy m (.begin now lease digest binding r) := by
  have hevict : (evict now m).rows.length ≤ maxEntries := Nat.le_trans length_evict_le hlen
  rcases begin_rows h with ⟨s, hget, hm'⟩ | ⟨hget, rfl⟩
  · have hle : m'.rows.length ≤ maxEntries := by
      rcases hm' with rfl | ⟨s', rfl⟩
      · exact hevict
      · exact Nat.le_trans (Table.length_put_of_some hget) hevict
    refine iff_of_true hle fun hfull => ?_
    cases hget.symm.trans hfull.1
  · rw [Table.length_put_of_none (get_makeRoom_none hget)]
    constructor
    · rintro hle ⟨-, hfull⟩
      by_contra hnone
      have hsettling : ∀ k s, (evict now m).get k = some s → s.isSettling = true := by
        intro k s hs
        by_contra hfinished
        exact hnone ⟨k, s, hs, eq_false_of_ne_true hfinished⟩
      rw [makeRoom_of_settling hsettling] at hle
      omega
    · intro hroomy
      by_cases hfull : maxEntries ≤ (evict now m).rows.length
      · obtain ⟨k, s, hs, hfinished⟩ := hroomy ⟨hget, hfull⟩
        exact length_makeRoom_lt hs hfinished hevict
      · rw [makeRoom, if_neg hfull]
        omega

theorem length_complete (h : complete now digest binding lease result m = (m', u)) :
    m'.rows.length ≤ m.rows.length := by
  unfold complete at h
  split at h
  · rename_i hget
    split at h
    · cases h
      exact Table.length_put_of_some hget
    · cases h
      exact Nat.le_refl _
  · cases h
    exact Nat.le_refl _

theorem length_fail (h : fail now digest binding lease m = (m', u)) :
    m'.rows.length ≤ m.rows.length := by
  unfold fail at h
  split at h
  · rename_i hget
    split at h
    · cases h
      exact Table.length_put_of_some hget
    · cases h
      exact Nat.le_refl _
  · cases h
    exact Nat.le_refl _

theorem begin_keeps (h : begin now lease digest binding m = (m', r)) :
    KeepsLeases m (.begin now lease digest binding r) m' := by
  intro k b l started hget hlease
  refine .inl ?_
  have hevict : (evict now m).get k = some (.settling b l started) := by
    rw [get_evict, hget]
    exact Option.filter_some_pos (decide_eq_true (Nat.le_trans hlease (by decide)))
  by_cases hk : k = digest
  · subst hk
    simp only [begin, hevict] at h
    split at h
    · cases h
      exact hevict
    · have hheld : ¬ leaseTtl < now - started := Nat.not_lt.mpr hlease
      rw [if_neg hheld] at h
      cases h
      exact hevict
  · rw [(begin_cell h).1 k hk]
    cases hd : (evict now m).get digest with
    | some s => rw [kept_of_some hd, hevict]
    | none =>
      rw [kept_of_none hd]
      by_contra hne
      obtain ⟨-, hfinished, -⟩ := get_makeRoom_cases hevict hne
      cases hfinished

theorem complete_keeps (h : complete now digest binding lease result m = (m', u)) :
    KeepsLeases m (.complete now digest binding lease result u) m' := by
  intro k b l started hget _
  by_cases hk : k = digest
  · subst hk
    simp only [complete, hget] at h
    split at h
    · rename_i hheld
      obtain ⟨rfl, rfl⟩ := hheld
      cases h
      exact .inr (.inl ⟨result, rfl, Table.get_put_self⟩)
    · cases h
      exact .inl hget
  · exact .inl (((complete_cell h).1 k hk).trans hget)

theorem fail_keeps (h : fail now digest binding lease m = (m', u)) :
    KeepsLeases m (.fail now digest binding lease u) m' := by
  intro k b l started hget _
  by_cases hk : k = digest
  · subst hk
    simp only [fail, hget] at h
    split at h
    · rename_i hheld
      obtain ⟨rfl, rfl⟩ := hheld
      cases h
      exact .inr (.inr ⟨rfl, Table.get_put_self⟩)
    · cases h
      exact .inl hget
  · exact .inl (((fail_cell h).1 k hk).trans hget)

end Steps

section Runs

variable {s s' t : StoreState State} {c : Option Call}
  {tr : List (Transition (StoreState State) (Option Call))}

/-- No step discards an entry under a lease that has not expired. -/
theorem step_keeps (h : Step s c s') : ∀ call ∈ c, KeepsLeases s.rows call s'.rows := by
  rintro call ⟨⟩
  cases h with
  | call h =>
    obtain ⟨-, -, hcall⟩ := h
    cases call with
    | begin => exact begin_keeps hcall
    | complete => exact complete_keeps hcall
    | fail => exact fail_keeps hcall

theorem step_length (h : Step s c s') (hlen : s.rows.rows.length ≤ maxEntries) :
    s'.rows.rows.length ≤ maxEntries ↔ ∀ call ∈ c, Roomy s.rows call := by
  cases h with
  | reorder hperm =>
    rw [hperm.length_eq]
    exact iff_of_true hlen nofun
  | @call _ c h =>
    obtain ⟨-, -, hcall⟩ := h
    simp only [Option.mem_some_iff, forall_eq']
    cases c with
    | begin => exact length_begin hlen hcall
    | complete => exact iff_of_true (Nat.le_trans (length_complete hcall) hlen) trivial
    | fail => exact iff_of_true (Nat.le_trans (length_fail hcall) hlen) trivial

theorem run_length (h : Run Step s tr t) (hlen : s.rows.rows.length ≤ maxEntries) :
    (∀ z ∈ tr, z.target.rows.rows.length ≤ maxEntries) ↔
      ∀ z ∈ tr, ∀ call ∈ z.label, Roomy z.source.rows call := by
  induction tr generalizing s with
  | nil => exact iff_of_true nofun nofun
  | cons x tr ih =>
    obtain ⟨rfl, hx, h⟩ := h
    rw [List.forall_mem_cons, List.forall_mem_cons, ← step_length hx hlen]
    exact and_congr_right fun hlen' => ih h hlen'

/-- From the empty map on, the map stays within its bound and no entry under a lease that has not
expired is discarded, exactly if every transaction that is begun on a full map finds a finished
entry there. -/
theorem bounded_iff {start : ℕ} (h : Run Step ⟨Table.empty, start⟩ tr t) :
    (∀ z ∈ tr, z.target.rows.rows.length ≤ maxEntries ∧
        ∀ call ∈ z.label, KeepsLeases z.source.rows call z.target.rows) ↔
      ∀ z ∈ tr, ∀ call ∈ z.label, Roomy z.source.rows call := by
  have hempty : (Table.empty : Entries).rows.length ≤ maxEntries := Nat.zero_le _
  rw [← run_length h hempty]
  constructor
  · intro hall z hz
    exact (hall z hz).1
  · intro hlen z hz
    have hstep := (h.step_of_mem (I := fun _ => True) (fun _ _ _ _ _ => trivial) trivial hz).2
    exact ⟨hlen z hz, step_keeps hstep⟩

end Runs

namespace Sample

open Payments.Sample

theorem bounded_settling :
    (beginning.target.rows.rows.length ≤ maxEntries ∧
      ∀ call ∈ beginning.label, KeepsLeases beginning.source.rows call beginning.target.rows) ∧
    settling.target.rows.rows.length ≤ maxEntries ∧
      ∀ call ∈ settling.label, KeepsLeases settling.source.rows call settling.target.rows := by
  have hroomy : ∀ z ∈ [beginning, settling], ∀ call ∈ z.label, Roomy z.source.rows call := by
    intro z hz call hcall
    rcases List.mem_cons.mp hz with rfl | hz
    · cases hcall
      rintro ⟨-, hfull⟩
      exact absurd hfull (by decide)
    · obtain rfl := List.mem_singleton.mp hz
      cases hcall
      trivial
  have hbounded := (bounded_iff run_settling).mpr hroomy
  exact ⟨hbounded _ List.mem_cons_self, hbounded _ (List.mem_cons_of_mem _ List.mem_cons_self)⟩

/-- The map after `n` transactions were begun at once. -/
def crowd : ℕ → Entries
  | 0 => Table.empty
  | n + 1 => (begin 0 ⟨n + 1⟩ (other n) binding (crowd n)).1

def crowding (n : ℕ) : Transition (StoreState State) (Option Call) :=
  ⟨⟨crowd n, 0⟩, some (.begin 0 ⟨n + 1⟩ (other n) binding (.ok (.acquired ⟨n + 1⟩))),
    ⟨crowd (n + 1), 0⟩⟩

/-- There is an entry for each of the transactions, and all are being settled. -/
structure Crowd (n : ℕ) (m : Entries) : Prop where
  length : m.rows.length = n
  settling : ∀ k s, m.get k = some s → s.isSettling = true ∧ ∃ i < n, k = other i

theorem Crowd.fresh {n : ℕ} {m : Entries} (h : Crowd n m) : m.get (other n) = none := by
  cases hget : m.get (other n) with
  | none => rfl
  | some s =>
    obtain ⟨-, i, hi, hother⟩ := h.settling _ s hget
    have heq := other_injective hother
    omega

theorem Crowd.begin {n : ℕ} {m : Entries} (h : Crowd n m) :
    begin 0 ⟨n + 1⟩ (other n) binding m =
      ((evict 0 m).put (other n) (.settling binding ⟨n + 1⟩ 0), .ok (.acquired ⟨n + 1⟩)) := by
  have hroom : makeRoom 0 (evict 0 m) = evict 0 m := by
    apply makeRoom_of_settling
    intro k s hs
    rw [get_congr_rows (evict_zero m)] at hs
    exact (h.settling k s hs).1
  rw [begin_other h.fresh, hroom]

theorem crowd_spec (n : ℕ) : Crowd n (crowd n) := by
  induction n with
  | zero => exact ⟨rfl, nofun⟩
  | succ n ih =>
    have hfresh : (evict 0 (crowd n)).get (other n) = none := by
      rw [get_congr_rows (evict_zero _), ih.fresh]
    have hnext : crowd (n + 1) =
        (evict 0 (crowd n)).put (other n) (.settling binding ⟨n + 1⟩ 0) := by
      rw [crowd, ih.begin]
    constructor
    · rw [hnext, Table.length_put_of_none hfresh, evict_zero, ih.length]
    · intro k s hs
      by_cases hk : k = other n
      · subst hk
        rw [hnext, Table.get_put_self] at hs
        cases hs
        exact ⟨rfl, n, Nat.lt_succ_self n, rfl⟩
      · rw [hnext, Table.get_put_of_ne hk, get_congr_rows (evict_zero _)] at hs
        obtain ⟨hsettling, i, hi, hki⟩ := ih.settling k s hs
        exact ⟨hsettling, i, Nat.lt_succ_of_lt hi, hki⟩

theorem run_crowd (n : ℕ) :
    Run Step ⟨Table.empty, 0⟩ ((List.range n).map crowding) ⟨crowd n, 0⟩ := by
  induction n with
  | zero => rfl
  | succ n ih =>
    rw [List.range_succ, List.map_append]
    apply Run.append_iff.mpr
    refine ⟨_, ih, rfl, .call ⟨Nat.le_refl 0, rfl, ?_⟩, rfl⟩
    have hbegin := (crowd_spec n).begin
    show Memory.begin 0 ⟨n + 1⟩ (other n) binding (crowd n) =
      ((Memory.begin 0 ⟨n + 1⟩ (other n) binding (crowd n)).1, .ok (.acquired ⟨n + 1⟩))
    rw [hbegin]

/-- After 513 transactions were begun at once, the map has an entry for each. -/
theorem not_bounded : ¬ ∀ tr t, Run Step ⟨Table.empty, 0⟩ tr t →
    ∀ z ∈ tr, z.target.rows.rows.length ≤ maxEntries ∧
      ∀ call ∈ z.label, KeepsLeases z.source.rows call z.target.rows := by
  intro h
  obtain ⟨n, hn⟩ : ∃ n, n = maxEntries := ⟨maxEntries, rfl⟩
  have hmem : crowding n ∈ (List.range (n + 1)).map crowding :=
    List.mem_map_of_mem (List.mem_range.mpr (Nat.lt_succ_self n))
  have hle : (crowd (n + 1)).rows.length ≤ maxEntries := (h _ _ (run_crowd (n + 1)) _ hmem).1
  rw [(crowd_spec (n + 1)).length] at hle
  omega

end Sample

end AgentBond.Payments.Memory
