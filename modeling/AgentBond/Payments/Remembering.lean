import AgentBond.Payments.Calls

/-! # What the memory store remembers

A settled transaction is answered from the map for as long as entries live,
unless the map is full when another one is begun and makes room by dropping the
oldest finished entry. Which of several oldest entries goes depends on the order
of the map, which is arbitrary.
-/

namespace AgentBond.Payments.Memory

open Foundation

/-- A step of the memory store: a call, or the map has another order. -/
inductive Step : StoreState State → Option Call → StoreState State → Prop
  | call {s s' : StoreState State} {c : Call} (h : memoryStore.Step s c s') : Step s (some c) s'
  | reorder {s s' : StoreState State} (h : s'.rows.rows.Perm s.rows.rows)
      (hclock : s'.clock = s.clock) : Step s none s'

/-- Beginning this transaction finds no entry of it and no room for one. -/
def Full (now : ℕ) (digest : Text) (m : Entries) : Prop :=
  (evict now m).get digest = none ∧ maxEntries ≤ (evict now m).rows.length

/-- The entry is finished, and no finished one is older. -/
def Oldest (now : ℕ) (k : Text) (m : Entries) : Prop :=
  ∃ s, (evict now m).get k = some s ∧ s.isSettling = false ∧
    ∀ k' s', (evict now m).get k' = some s' → s'.isSettling = false → now - s'.since ≤ now - s.since

/-- The call finds no room while the entry is an oldest finished one. -/
def Crowded (k : Text) (m : Entries) : Call → Prop
  | .begin now _ digest _ _ => Full now digest m ∧ Oldest now k m
  | _ => False

section Steps

variable {m m' : Entries} {now completed : ℕ} {digest k : Text} {lease : LeaseToken}
  {b binding : SettlementBinding} {result res : PaidDemoResult} {r : Paid BeginOutcome}
  {u : Paid Unit}

theorem oldest_eq_none {l : List (Text × ℕ)} (h : oldest l = none) : l = [] := by
  cases l with
  | nil => rfl
  | cons e l =>
    unfold oldest at h
    split at h
    · split at h <;> cases h
    · cases h

theorem oldest_spec {l : List (Text × ℕ)} {e : Text × ℕ} (h : oldest l = some e) :
    e ∈ l ∧ ∀ e' ∈ l, e'.2 ≤ e.2 := by
  induction l generalizing e with
  | nil => cases h
  | cons x l ih =>
    unfold oldest at h
    split at h
    · rename_i best hbest
      obtain ⟨hmem, hmax⟩ := ih hbest
      split at h
      · rename_i hlt
        cases h
        refine ⟨List.mem_cons_self, fun e' he' => ?_⟩
        rcases List.mem_cons.mp he' with rfl | he'
        · exact Nat.le_refl _
        · have hle := hmax e' he'
          omega
      · rename_i hge
        cases h
        refine ⟨List.mem_cons_of_mem x hmem, fun e' he' => ?_⟩
        rcases List.mem_cons.mp he' with rfl | he'
        · omega
        · exact hmax e' he'
    · rename_i hnone
      cases h
      rw [oldest_eq_none hnone]
      refine ⟨List.mem_cons_self, fun e' he' => ?_⟩
      obtain rfl := List.mem_singleton.mp he'
      exact Nat.le_refl _

theorem mem_finished {e : Text × ℕ} : e ∈ finished now m ↔
    ∃ s, m.get e.1 = some s ∧ s.isSettling = false ∧ e.2 = now - s.since := by
  simp only [finished, List.mem_map, Prod.exists, Table.mem_selectWhere, Bool.not_eq_true']
  constructor
  · rintro ⟨k, s, ⟨hget, hs⟩, rfl⟩
    exact ⟨s, hget, hs, rfl⟩
  · rintro ⟨s, hget, hs, he⟩
    exact ⟨e.1, s, ⟨hget, hs⟩, by rw [← he]⟩

/-- Making room drops no entry, or an oldest finished one. -/
theorem get_makeRoom_cases {s : State} (hget : m.get k = some s)
    (hroom : (makeRoom now m).get k ≠ some s) :
    maxEntries ≤ m.rows.length ∧ s.isSettling = false ∧
      ∀ k' s', m.get k' = some s' → s'.isSettling = false → now - s'.since ≤ now - s.since := by
  unfold makeRoom at hroom
  split at hroom
  · rename_i hfull
    unfold evictOneTargeted at hroom
    split at hroom
    · rename_i e hold
      obtain ⟨hmem, hmax⟩ := oldest_spec hold
      rw [Table.get_deleteWhere, hget] at hroom
      by_cases hk : k = e.1
      · subst hk
        obtain ⟨s₀, hget₀, hfinished, he⟩ := mem_finished.mp hmem
        cases hget.symm.trans hget₀
        refine ⟨hfull, hfinished, fun k' s' hget' hs' => ?_⟩
        rw [← he]
        exact hmax (k', now - s'.since) (mem_finished.mpr ⟨s', hget', hs', rfl⟩)
      · simp [hk] at hroom
    · exact absurd hget hroom
  · exact absurd hget hroom

theorem get_kept_of_settled (hget : m.get k = some (.settled b res completed))
    (htime : now ≤ completed + entryTtl) (hroom : ¬ (Full now digest m ∧ Oldest now k m)) :
    (kept now digest m).get k = some (.settled b res completed) := by
  have hevict : (evict now m).get k = some (.settled b res completed) := by
    rw [get_evict, hget]
    exact Option.filter_some_pos (decide_eq_true (by simp only [State.since]; omega))
  cases hd : (evict now m).get digest with
  | some s => rw [kept_of_some hd, hevict]
  | none =>
    rw [kept_of_none hd]
    by_contra hne
    obtain ⟨hfull, hs, hmax⟩ := get_makeRoom_cases hevict hne
    exact hroom ⟨⟨hd, hfull⟩, _, hevict, hs, hmax⟩

theorem begin_of_settled (hget : m.get k = some (.settled b res completed))
    (htime : now ≤ completed + entryTtl) (h : begin now lease k binding m = (m', r)) :
    m'.get k = some (.settled b res completed) ∧ (binding = b → r = .ok (.cached res)) ∧
      (binding ≠ b → r = .error .bindingMismatch) := by
  have hevict : (evict now m).get k = some (.settled b res completed) := by
    rw [get_evict, hget]
    exact Option.filter_some_pos (decide_eq_true (by simp only [State.since]; omega))
  simp only [begin, hevict] at h
  split at h
  · rename_i hne
    cases h
    exact ⟨hevict, fun heq => absurd heq.symm hne, fun _ => rfl⟩
  · rename_i heq
    cases h
    have heq : b = binding := Decidable.of_not_not heq
    exact ⟨hevict, fun _ => rfl, fun hne => absurd heq.symm hne⟩

theorem complete_of_settled (hget : m.get k = some (.settled b res completed))
    (h : complete now digest binding lease result m = (m', u)) :
    m'.get k = some (.settled b res completed) := by
  by_cases hk : k = digest
  · subst hk
    simp only [complete, hget] at h
    cases h
    exact hget
  · rw [(complete_cell h).1 k hk, hget]

theorem complete_ok (h : complete now k binding lease result m = (m', .ok ())) :
    m'.get k = some (.settled binding result now) := by
  unfold complete at h
  split at h
  · split at h
    · cases h
      exact Table.get_put_self
    · cases h
  · cases h

theorem fail_of_settled (hget : m.get k = some (.settled b res completed))
    (h : fail now digest binding lease m = (m', u)) :
    m'.get k = some (.settled b res completed) := by
  by_cases hk : k = digest
  · subst hk
    simp only [fail, hget] at h
    cases h
    exact hget
  · rw [(fail_cell h).1 k hk, hget]

end Steps

section Runs

variable {s s' t : StoreState State} {c : Option Call} {k : Text} {b b' : SettlementBinding}
  {res : PaidDemoResult} {completed now : ℕ} {l l' : LeaseToken} {r : Paid BeginOutcome}
  {tr tr₁ tr₂ tr₃ : List (Transition (StoreState State) (Option Call))}
  {x y : Transition (StoreState State) (Option Call)}

theorem clock_step (h : Step s c s') : s.clock ≤ s'.clock := by
  cases h with
  | call h =>
    obtain ⟨hclock, hnow, -⟩ := h
    rw [hnow]
    exact hclock
  | reorder _ hclock => exact Nat.le_of_eq hclock.symm

theorem clock_run (h : Run Step s tr t) : s.clock ≤ t.clock := by
  induction tr generalizing s with
  | nil =>
    obtain rfl : s = t := h
    exact Nat.le_refl _
  | cons x tr ih =>
    obtain ⟨rfl, hx, h⟩ := h
    exact Nat.le_trans (clock_step hx) (ih h)

/-- One step keeps a settled entry, within its time to live and unless it is crowded out. -/
theorem settled_step (h : Step s c s') (hget : s.rows.get k = some (.settled b res completed))
    (htime : s'.clock ≤ completed + entryTtl) (hroom : ∀ call ∈ c, ¬ Crowded k s.rows call) :
    s'.rows.get k = some (.settled b res completed) := by
  cases h with
  | reorder hperm =>
    rw [← hget]
    exact Table.get_congr fun e => hperm.mem_iff
  | @call _ c h =>
    obtain ⟨-, hnow, hcall⟩ := h
    have hroom := hroom c rfl
    cases c with
    | begin now lease digest binding r =>
      rw [hnow] at htime
      by_cases hk : k = digest
      · subst hk
        exact (begin_of_settled hget htime hcall).1
      · rw [(begin_cell hcall).1 k hk]
        exact get_kept_of_settled hget htime hroom
    | complete now digest binding lease result u => exact complete_of_settled hget hcall
    | fail now digest binding lease u => exact fail_of_settled hget hcall

theorem settled_run (h : Run Step s tr t) (hget : s.rows.get k = some (.settled b res completed))
    (htime : t.clock ≤ completed + entryTtl)
    (hroom : ∀ z ∈ tr, ∀ call ∈ z.label, ¬ Crowded k z.source.rows call) :
    t.rows.get k = some (.settled b res completed) := by
  induction tr generalizing s with
  | nil => rw [← show s = t from h, hget]
  | cons x tr ih =>
    obtain ⟨rfl, hx, h⟩ := h
    have hclock := clock_run h
    have hstep := settled_step hx hget (by omega) (hroom x List.mem_cons_self)
    exact ih h hstep fun z hz => hroom z (List.mem_cons_of_mem x hz)

/-- Once a transaction is settled, and for as long as entries live, every call to begin with it is
answered with the stored result or refused as a mismatch, unless some call in between to begin with
a transaction the map did not hold met a full map in which this entry was an oldest finished one. -/
theorem settled_remembered (h : Run Step s (tr₁ ++ x :: (tr₂ ++ y :: tr₃)) t)
    (hx : x.label = some (.complete completed k b l res (.ok ())))
    (hy : y.label = some (.begin now l' k b' r)) (htime : now ≤ completed + entryTtl)
    (hroom : ∀ z ∈ tr₂, ∀ call ∈ z.label, ¬ Crowded k z.source.rows call) :
    (b' = b → r = .ok (.cached res)) ∧ (b' ≠ b → r = .error .bindingMismatch) := by
  obtain ⟨-, hstepx, hrest⟩ := h.split
  obtain ⟨hrun, hstepy, -⟩ := hrest.split
  rw [hx] at hstepx
  rw [hy] at hstepy
  cases hstepx with
  | call hstepx =>
    cases hstepy with
    | call hstepy =>
      obtain ⟨-, -, hcomplete⟩ := hstepx
      obtain ⟨hclock, -, hbegin⟩ := hstepy
      have hget := settled_run hrun (complete_ok hcomplete) (Nat.le_trans hclock htime) hroom
      exact (begin_of_settled hget htime hbegin).2

end Runs

namespace Sample

open Payments.Sample

def begun : Entries := (begin 0 ⟨0⟩ digest binding Table.empty).1

def settled : Entries := (complete 0 digest binding ⟨0⟩ result begun).1

def beginning : Transition (StoreState State) (Option Call) :=
  ⟨⟨Table.empty, 0⟩, some (.begin 0 ⟨0⟩ digest binding (.ok (.acquired ⟨0⟩))), ⟨begun, 0⟩⟩

def settling : Transition (StoreState State) (Option Call) :=
  ⟨⟨begun, 0⟩, some (.complete 0 digest binding ⟨0⟩ result (.ok ())), ⟨settled, 0⟩⟩

theorem run_settling : Run Step ⟨Table.empty, 0⟩ [beginning, settling] ⟨settled, 0⟩ :=
  ⟨rfl, .call ⟨Nat.le_refl 0, rfl, rfl⟩, rfl, .call ⟨Nat.le_refl 0, rfl, rfl⟩, rfl⟩

/-- The digests of other transactions. -/
def other (n : ℕ) : Text := Nat.toDigits 10 (10 ^ 63 + n)

/-- The map after `n` other transactions were begun. -/
def filled : ℕ → Entries
  | 0 => settled
  | n + 1 => (begin 0 ⟨n + 1⟩ (other n) binding (filled n)).1

def filling (n : ℕ) : Transition (StoreState State) (Option Call) :=
  ⟨⟨filled n, 0⟩, some (.begin 0 ⟨n + 1⟩ (other n) binding (.ok (.acquired ⟨n + 1⟩))),
    ⟨filled (n + 1), 0⟩⟩

theorem other_injective {n n' : ℕ} (h : other n = other n') : n = n' := by
  have hread : ∀ n, Nat.ofDigitChars 10 (other n) 0 = 10 ^ 63 + n := fun n =>
    Nat.ofDigitChars_toDigits (by decide) (by decide)
  have hn := hread n
  rw [h, hread n'] at hn
  omega

theorem other_ne_digest (n : ℕ) : other n ≠ digest := by
  intro h
  have hmem : 'a' ∈ other n := by
    rw [h]
    exact List.mem_cons_self
  have hdigit := Nat.isDigit_of_mem_toDigits (by decide) (by decide) hmem
  cases hdigit

theorem evict_zero (m : Entries) : (evict 0 m).rows = m.rows := by
  refine List.filter_eq_self.mpr fun e _ => ?_
  simp

/-- The first entries: one settled, the others being settled. -/
structure Filled (n : ℕ) (m : Entries) : Prop where
  length : m.rows.length = n + 1
  settled : m.get digest = some (.settled binding result 0)
  others : ∀ k s, m.get k = some s → k ≠ digest → s.isSettling = true ∧ ∃ i < n, k = other i

theorem get_congr_rows {m m' : Entries} (h : m.rows = m'.rows) (k : Text) : m.get k = m'.get k :=
  Table.get_congr fun s => by rw [h]

theorem begin_other {n : ℕ} {m : Entries} (h : m.get (other n) = none) :
    begin 0 ⟨n + 1⟩ (other n) binding m =
      ((makeRoom 0 (evict 0 m)).put (other n) (.settling binding ⟨n + 1⟩ 0),
        .ok (.acquired ⟨n + 1⟩)) := by
  rw [← get_congr_rows (evict_zero m)] at h
  simp only [begin, h]

theorem Filled.fresh {n : ℕ} {m : Entries} (h : Filled n m) : m.get (other n) = none := by
  cases hget : m.get (other n) with
  | none => rfl
  | some s =>
    obtain ⟨-, i, hi, hother⟩ := h.others _ s hget (other_ne_digest n)
    have heq := other_injective hother
    omega

theorem filled_spec (n : ℕ) (hn : n < 512) : Filled n (filled n) := by
  induction n with
  | zero =>
    refine ⟨rfl, rfl, fun k s hget hk => ?_⟩
    have hone : filled 0 = Table.empty.put digest (.settled binding result 0) := rfl
    rw [hone, Table.get_put_of_ne hk] at hget
    cases hget
  | succ n ih =>
    have h := ih (by omega)
    have hroom : makeRoom 0 (evict 0 (filled n)) = evict 0 (filled n) := by
      refine if_neg ?_
      rw [evict_zero, h.length, maxEntries]
      omega
    have hnext : filled (n + 1) =
        (evict 0 (filled n)).put (other n) (.settling binding ⟨n + 1⟩ 0) := by
      rw [filled, begin_other h.fresh, hroom]
    have hget : ∀ k, k ≠ other n → (filled (n + 1)).get k = (filled n).get k := fun k hk => by
      rw [hnext, Table.get_put_of_ne hk, get_congr_rows (evict_zero _)]
    constructor
    · rw [hnext, Table.put, List.length_cons, evict_zero]
      rw [List.filter_eq_self.mpr, h.length]
      rintro ⟨k, s⟩ hmem
      refine decide_eq_true fun hk => ?_
      subst hk
      cases h.fresh.symm.trans (Table.get_eq_some.mpr hmem)
    · rw [hget _ (Ne.symm (other_ne_digest n)), h.settled]
    · intro k s hs hk
      by_cases hkn : k = other n
      · subst hkn
        rw [hnext, Table.get_put_self] at hs
        cases hs
        exact ⟨rfl, n, Nat.lt_succ_self n, rfl⟩
      · rw [hget k hkn] at hs
        obtain ⟨hsettling, i, hi, hki⟩ := h.others k s hs hk
        exact ⟨hsettling, i, by omega, hki⟩

theorem filled_forgets {n : ℕ} (hn : n + 1 = 512) : (filled (n + 1)).get digest = none := by
  have h := filled_spec n (by omega)
  have hnext : filled (n + 1) = (makeRoom 0 (evict 0 (filled n))).put (other n)
      (.settling binding ⟨n + 1⟩ 0) := by
    rw [filled, begin_other h.fresh]
  have hget : ∀ k, (evict 0 (filled n)).get k = (filled n).get k := get_congr_rows (evict_zero _)
  have hlength : (evict 0 (filled n)).rows.length = n + 1 := by
    rw [evict_zero, h.length]
  have hfull : maxEntries ≤ (evict 0 (filled n)).rows.length := by
    rw [hlength]
    exact Nat.le_of_eq hn.symm
  rw [hnext, Table.get_put_of_ne (Ne.symm (other_ne_digest n)), makeRoom, if_pos hfull,
    evictOneTargeted]
  have hmem : (digest, 0) ∈ finished 0 (evict 0 (filled n)) :=
    mem_finished.mpr ⟨_, (hget digest).trans h.settled, rfl, rfl⟩
  split
  · rename_i e hold
    obtain ⟨s, hs, hfinished, -⟩ := mem_finished.mp (oldest_spec hold).1
    have he : e.1 = digest := by
      by_contra hne
      rw [hget] at hs
      rw [(h.others _ s hs hne).1] at hfinished
      cases hfinished
    rw [Table.get_deleteWhere, he]
    exact Option.filter_eq_none_iff.mpr fun s _ => by simp
  · rename_i hnone
    rw [oldest_eq_none hnone] at hmem
    cases hmem

def fillings (n : ℕ) : List (Transition (StoreState State) (Option Call)) :=
  (List.range n).map filling

theorem run_fillings (n : ℕ) (hn : n ≤ 512) :
    Run Step ⟨settled, 0⟩ (fillings n) ⟨filled n, 0⟩ := by
  induction n with
  | zero => rfl
  | succ n ih =>
    rw [fillings, List.range_succ, List.map_append]
    refine Run.append_iff.mpr ⟨_, ih (by omega), rfl, .call ⟨Nat.le_refl 0, rfl, ?_⟩, rfl⟩
    have hbegin := begin_other (filled_spec n (by omega)).fresh
    show begin 0 ⟨n + 1⟩ (other n) binding (filled n) =
      ((begin 0 ⟨n + 1⟩ (other n) binding (filled n)).1, .ok (.acquired ⟨n + 1⟩))
    rw [hbegin]

theorem not_crowded_of_mem_fillings {n : ℕ} (hn : n ≤ 511)
    {z : Transition (StoreState State) (Option Call)} (hz : z ∈ fillings n) :
    ∀ call ∈ z.label, ¬ Crowded digest z.source.rows call := by
  obtain ⟨i, hi, rfl⟩ := List.mem_map.mp hz
  have hi := List.mem_range.mp hi
  rintro _ ⟨⟩ ⟨⟨-, hfull⟩, -⟩
  have hlength : (evict 0 (filled i)).rows.length = i + 1 := by
    rw [evict_zero, (filled_spec i (by omega)).length]
  change maxEntries ≤ (evict 0 (filled i)).rows.length at hfull
  rw [hlength, maxEntries] at hfull
  omega

/-- A retry after 511 other transactions were begun is answered with the stored result. -/
theorem settled_remembered_retry :
    (begin 0 ⟨600⟩ digest binding (filled 511)).2 = .ok (.cached result) := by
  have hretry : ∀ n ≤ 511, (begin 0 ⟨600⟩ digest binding (filled n)).2 = .ok (.cached result) := by
    intro n hn
    have hlast : Run Step ⟨filled n, 0⟩ [⟨⟨filled n, 0⟩,
        some (.begin 0 ⟨600⟩ digest binding (begin 0 ⟨600⟩ digest binding (filled n)).2),
        ⟨(begin 0 ⟨600⟩ digest binding (filled n)).1, 0⟩⟩]
        ⟨(begin 0 ⟨600⟩ digest binding (filled n)).1, 0⟩ :=
      ⟨rfl, .call ⟨Nat.le_refl 0, rfl, rfl⟩, rfl⟩
    have hrest := Run.append_iff.mpr ⟨_, run_fillings n (by omega), hlast⟩
    have hrun : Run Step ⟨Table.empty, 0⟩ ([beginning] ++ settling :: (fillings n ++ _ :: [])) _ :=
      Run.append_iff.mpr
        ⟨⟨begun, 0⟩, ⟨rfl, run_settling.2.1, rfl⟩, rfl, run_settling.2.2.2.1, hrest⟩
    exact (settled_remembered hrun rfl rfl (Nat.zero_le _)
      fun z hz => not_crowded_of_mem_fillings hn hz).1 rfl
  exact hretry 511 (Nat.le_refl 511)

theorem exists_forgetting : ∃ m : Entries, (∃ tr, Run Step ⟨settled, 0⟩ tr ⟨m, 0⟩) ∧
    m.get digest = none := by
  obtain ⟨n, hn⟩ : ∃ n, n + 1 = 512 := ⟨511, rfl⟩
  exact ⟨filled (n + 1), ⟨fillings (n + 1), run_fillings (n + 1) (Nat.le_of_eq hn)⟩,
    filled_forgets hn⟩

/-- A retry right after 512 other transactions were begun is given a lease. -/
theorem settled_forgotten :
    ¬ ∀ tr₁ x tr₂ y tr₃ t completed k b l res now l' b' r,
      Run Step ⟨Table.empty, 0⟩ (tr₁ ++ x :: (tr₂ ++ y :: tr₃)) t →
      x.label = some (.complete completed k b l res (.ok ())) →
      y.label = some (.begin now l' k b' r) → now ≤ completed + entryTtl →
      (b' = b → r = .ok (.cached res)) ∧ (b' ≠ b → r = .error .bindingMismatch) := by
  intro h
  obtain ⟨full, ⟨tr, htr⟩, hforgot⟩ := exists_forgetting
  have hget : (evict 0 full).get digest = none := (get_congr_rows (evict_zero _) _).trans hforgot
  obtain ⟨again, hbegin⟩ : ∃ again : Entries,
      begin 0 ⟨600⟩ digest binding full = (again, .ok (.acquired ⟨600⟩)) := by
    simp only [begin, hget]
    exact ⟨_, rfl⟩
  have hlast : Run Step ⟨full, 0⟩
      [⟨⟨full, 0⟩, some (.begin 0 ⟨600⟩ digest binding (.ok (.acquired ⟨600⟩))), ⟨again, 0⟩⟩]
      ⟨again, 0⟩ := ⟨rfl, .call ⟨Nat.le_refl 0, rfl, hbegin⟩, rfl⟩
  have hrest := Run.append_iff.mpr ⟨_, htr, hlast⟩
  have hrun : Run Step ⟨Table.empty, 0⟩ ([beginning] ++ settling :: (tr ++ _ :: [])) ⟨again, 0⟩ :=
    Run.append_iff.mpr ⟨⟨begun, 0⟩, ⟨rfl, run_settling.2.1, rfl⟩, rfl, run_settling.2.2.2.1, hrest⟩
  have hreply := h [beginning] settling tr _ [] ⟨again, 0⟩ 0 digest binding ⟨0⟩ result 0 ⟨600⟩
    binding _ hrun rfl rfl (Nat.zero_le _)
  cases hreply.1 rfl

end Sample

end AgentBond.Payments.Memory
