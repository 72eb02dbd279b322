import AgentBond.Payments.Calls
import Mathlib.Data.List.Dedup
import Mathlib.Data.List.Perm.Subperm

/-! # The memory store refines the database store

Fed the same calls, the two stores answer alike and keep the same cells, as long
as the database takes the arguments, the map in memory has room and nothing in
it is older than its time to live.
-/

namespace AgentBond.Payments

open Foundation

/-- The same call, whatever the replies. -/
inductive Call.Same : Call → Call → Prop
  | begin {now : ℕ} {lease : LeaseToken} {digest : Text} {binding : SettlementBinding}
      (r r' : Paid BeginOutcome) :
      Same (.begin now lease digest binding r) (.begin now lease digest binding r')
  | complete {now : ℕ} {digest : Text} {binding : SettlementBinding} {lease : LeaseToken}
      {result : PaidDemoResult} (u u' : Paid Unit) :
      Same (.complete now digest binding lease result u)
        (.complete now digest binding lease result u')
  | fail {now : ℕ} {digest : Text} {binding : SettlementBinding} {lease : LeaseToken}
      (u u' : Paid Unit) :
      Same (.fail now digest binding lease u) (.fail now digest binding lease u')

/-- The replies agree: `begin` is answered alike, and `complete` succeeds in both or in neither. -/
inductive Call.Agree : Call → Call → Prop
  | begin {now now' : ℕ} {lease lease' : LeaseToken} {digest digest' : Text}
      {binding binding' : SettlementBinding} (r : Paid BeginOutcome) :
      Agree (.begin now lease digest binding r) (.begin now' lease' digest' binding' r)
  | complete {now now' : ℕ} {digest digest' : Text} {binding binding' : SettlementBinding}
      {lease lease' : LeaseToken} {result result' : PaidDemoResult} {u u' : Paid Unit}
      (h : u.isOk = u'.isOk) :
      Agree (.complete now digest binding lease result u)
        (.complete now' digest' binding' lease' result' u')
  | fail {now now' : ℕ} {digest digest' : Text} {binding binding' : SettlementBinding}
      {lease lease' : LeaseToken} (u u' : Paid Unit) :
      Agree (.fail now digest binding lease u) (.fail now' digest' binding' lease' u')

/-- The database takes the arguments of the call. -/
def Call.Accepted : Call → Prop
  | begin _ _ digest binding _ => Pg.Valid digest binding ∧ Pg.checkRow digest binding = true
  | complete _ _ _ _ result _ => Pg.Storable result
  | fail .. => True

/-- When the call begins a settlement, nothing in the map is older than its time to live. -/
def Young (entries : Memory.Entries) : Call → Prop
  | .begin now .. => ∀ k s, entries.get k = some s → now - s.since ≤ Memory.entryTtl
  | _ => True

/-- The stores keep the same cells, and the map only those of the known digests. -/
structure Linked (digests : List Text) (m : Memory.Entries) (rows : Pg.Rows) : Prop where
  cells : ∀ k, Memory.cellAt m k = Pg.cellAt rows k
  known : ∀ k s, m.get k = some s → k ∈ digests

section Steps

variable {digests : List Text} {m m' : Memory.Entries} {rows rows' : Pg.Rows} {now : ℕ}
  {digest k : Text} {lease : LeaseToken} {binding : SettlementBinding} {result : PaidDemoResult}
  {r r' : Paid BeginOutcome} {u u' : Paid Unit}

theorem Memory.get_evict_of_young
    (hyoung : ∀ k s, m.get k = some s → now - s.since ≤ entryTtl) :
    (evict now m).get k = m.get k := by
  rw [get_evict]
  cases hget : m.get k with
  | none => rfl
  | some s => exact Option.filter_some_pos (decide_eq_true (hyoung k s hget))

theorem Memory.makeRoom_of_few (hknown : ∀ k s, m.get k = some s → k ∈ digests)
    (hfew : digests.dedup.length < maxEntries) : makeRoom now m = m := by
  have hsub : m.rows.map Prod.fst ⊆ digests.dedup := by
    intro k hk
    obtain ⟨⟨k', s⟩, hmem, rfl⟩ := List.mem_map.mp hk
    exact List.mem_dedup.mpr (hknown k' s (Table.get_eq_some.mpr hmem))
  have hlen := (m.nodup.subperm hsub).length_le
  rw [List.length_map] at hlen
  exact if_neg (by omega)

theorem Memory.get_kept_of_young
    (hyoung : ∀ k s, m.get k = some s → now - s.since ≤ entryTtl)
    (hknown : ∀ k s, m.get k = some s → k ∈ digests)
    (hfew : digests.dedup.length < maxEntries) : (kept now digest m).get k = m.get k := by
  have hevict : (evict now m).get k = m.get k := get_evict_of_young hyoung
  have hroom : makeRoom now (evict now m) = evict now m := by
    refine makeRoom_of_few (fun j s hj => ?_) hfew
    rw [get_evict_of_young hyoung] at hj
    exact hknown j s hj
  unfold kept
  split
  · exact hevict
  · rw [hroom, hevict]

theorem Linked.begin (h : Linked digests m rows) (hfew : digests.dedup.length < Memory.maxEntries)
    (hdigest : digest ∈ digests)
    (hyoung : ∀ k s, m.get k = some s → now - s.since ≤ Memory.entryTtl)
    (hvalid : Pg.Valid digest binding) (hcheck : Pg.checkRow digest binding = true)
    (hm : Memory.begin now lease digest binding m = (m', r))
    (hp : Pg.begin now lease digest binding rows = (rows', r')) :
    r = r' ∧ Linked digests m' rows' := by
  have hkept : ∀ k, (Memory.kept now digest m).get k = m.get k := fun k =>
    Memory.get_kept_of_young hyoung h.known hfew
  obtain ⟨hother, a, rfl, hbegin⟩ := Memory.begin_cell hm
  have hcell : Memory.cellAt (Memory.kept now digest m) digest = Pg.cellAt rows digest := by
    rw [Memory.cellAt, hkept, ← h.cells, Memory.cellAt]
  rw [hcell] at hbegin
  obtain ⟨hother', ⟨a', rfl, -, -, hbegin', -⟩ | ⟨-, -, hrefused⟩⟩ := Pg.begin_cell hp
  · obtain ⟨hnew, rfl⟩ := Prod.mk.inj (hbegin.symm.trans hbegin')
    refine ⟨rfl, fun k => ?_, fun k s hk => ?_⟩
    · by_cases hkd : k = digest
      · rw [hkd, hnew]
      · have hcells := h.cells k
        rw [Memory.cellAt, Pg.cellAt] at hcells ⊢
        rw [hother k hkd, hkept, hother' k hkd, hcells]
    · by_cases hkd : k = digest
      · rwa [hkd]
      · rw [hother k hkd, hkept] at hk
        exact h.known k s hk
  · cases hcheck.symm.trans (hrefused hvalid).2

/-- The cell under one digest changes alike, and no other one. -/
theorem Linked.update (h : Linked digests m rows) (hother : ∀ k, k ≠ digest → m'.get k = m.get k)
    (hother' : ∀ k, k ≠ digest → rows'.get k = rows.get k) (hdigest : digest ∈ digests)
    (hcell : Memory.cellAt m' digest = Pg.cellAt rows' digest) : Linked digests m' rows' := by
  constructor
  · intro k
    by_cases hkd : k = digest
    · rw [hkd, hcell]
    · have hcells := h.cells k
      rw [Memory.cellAt, Pg.cellAt] at hcells ⊢
      rw [hother k hkd, hother' k hkd, hcells]
  · intro k s hk
    by_cases hkd : k = digest
    · rwa [hkd]
    · rw [hother k hkd] at hk
      exact h.known k s hk

theorem Linked.complete (h : Linked digests m rows) (hdigest : digest ∈ digests)
    (hstorable : Pg.Storable result)
    (hm : Memory.complete now digest binding lease result m = (m', u))
    (hp : Pg.complete now digest binding lease result rows = (rows', u')) :
    u.isOk = u'.isOk ∧ Linked digests m' rows' := by
  obtain ⟨hother, hcell⟩ := Memory.complete_cell hm
  obtain ⟨hother', ⟨-, hcell'⟩ | ⟨hnot, -⟩⟩ := Pg.complete_cell now hp
  · rw [h.cells] at hcell
    obtain ⟨hnew, hok⟩ := Prod.mk.inj (hcell.symm.trans hcell')
    exact ⟨hok, h.update hother hother' hdigest hnew⟩
  · exact absurd hstorable hnot

theorem Linked.fail (h : Linked digests m rows) (hdigest : digest ∈ digests)
    (hm : Memory.fail now digest binding lease m = (m', u))
    (hp : Pg.fail now digest binding lease rows = (rows', u')) : Linked digests m' rows' := by
  obtain ⟨hother, ok, hcell⟩ := Memory.fail_cell hm
  obtain ⟨hother', hcell'⟩ := Pg.fail_cell hp
  rw [h.cells] at hcell
  obtain ⟨hnew, -⟩ := Prod.mk.inj (hcell.symm.trans hcell')
  exact h.update hother hother' hdigest hnew

end Steps

section Runs

variable {digests : List Text} {sm sm' : StoreState Memory.State}
  {sp sp' : StoreState Pg.SettlementRow} {c c' : Call}

theorem Linked.step (h : Linked digests sm.rows sp.rows)
    (hfew : digests.dedup.length < Memory.maxEntries) (hm : memoryStore.Step sm c sm')
    (hp : pgStore.Step sp c' sp') (hsame : c.Same c') (hdigest : c.digest ∈ digests)
    (haccepted : c.Accepted) (hyoung : Young sm.rows c) :
    c.Agree c' ∧ Linked digests sm'.rows sp'.rows := by
  obtain ⟨-, -, hm⟩ := hm
  obtain ⟨-, -, hp⟩ := hp
  cases hsame with
  | begin r r' =>
    obtain ⟨rfl, hlinked⟩ := h.begin hfew hdigest hyoung haccepted.1 haccepted.2 hm hp
    exact ⟨.begin r, hlinked⟩
  | complete u u' =>
    obtain ⟨hok, hlinked⟩ := h.complete hdigest haccepted hm hp
    exact ⟨.complete hok, hlinked⟩
  | fail u u' => exact ⟨.fail u u', h.fail hdigest hm hp⟩

variable {trm : List (Transition (StoreState Memory.State) Call)}
  {trp : List (Transition (StoreState Pg.SettlementRow) Call)}

theorem Linked.run (h : Linked digests sm.rows sp.rows)
    (hfew : digests.dedup.length < Memory.maxEntries) (hm : Run memoryStore.Step sm trm sm')
    (hp : Run pgStore.Step sp trp sp')
    (hsame : List.Forall₂ (fun x y => x.label.Same y.label) trm trp)
    (hcalls :
      ∀ x ∈ trm, x.label.digest ∈ digests ∧ x.label.Accepted ∧ Young x.source.rows x.label) :
    List.Forall₂ (fun x y => x.label.Agree y.label ∧
        ∀ k, Memory.cellAt x.target.rows k = Pg.cellAt y.target.rows k) trm trp ∧
      ∀ k, Memory.cellAt sm'.rows k = Pg.cellAt sp'.rows k := by
  induction hsame generalizing sm sp with
  | nil =>
    obtain rfl : sm = sm' := hm
    obtain rfl : sp = sp' := hp
    exact ⟨.nil, h.cells⟩
  | @cons x y trm trp hxy _ ih =>
    obtain ⟨rfl, hmx, hm⟩ := hm
    obtain ⟨rfl, hpy, hp⟩ := hp
    obtain ⟨hdigest, haccepted, hyoung⟩ := hcalls x List.mem_cons_self
    obtain ⟨hagree, hlinked⟩ := h.step hfew hmx hpy hxy hdigest haccepted hyoung
    obtain ⟨hrest, hend⟩ := ih hlinked hm hp fun z hz => hcalls z (List.mem_cons_of_mem x hz)
    exact ⟨.cons ⟨hagree, hlinked.cells⟩ hrest, hend⟩

/-- Fed the same calls from the start, the memory store answers as the database store does and keeps
the same cells, when the database takes the arguments of the calls, fewer than 512 transactions
occur and no entry is older than its time to live when a settlement is begun. -/
theorem memory_refines_pg {n : ℕ} (hm : Run memoryStore.Step ⟨Table.empty, n⟩ trm sm')
    (hp : Run pgStore.Step ⟨Table.empty, n⟩ trp sp')
    (hsame : List.Forall₂ (fun x y => x.label.Same y.label) trm trp)
    (haccepted : ∀ x ∈ trm, x.label.Accepted) (hyoung : ∀ x ∈ trm, Young x.source.rows x.label)
    (hfew : (trm.map fun x => x.label.digest).dedup.length < 512) :
    List.Forall₂ (fun x y => x.label.Agree y.label ∧
        ∀ k, Memory.cellAt x.target.rows k = Pg.cellAt y.target.rows k) trm trp ∧
      ∀ k, Memory.cellAt sm'.rows k = Pg.cellAt sp'.rows k := by
  have hlinked : Linked (trm.map fun x => x.label.digest) (Table.empty : Memory.Entries)
      (Table.empty : Pg.Rows) := ⟨fun _ => rfl, fun k s hk => by cases hk⟩
  exact hlinked.run hfew hm hp hsame fun x hx =>
    ⟨List.mem_map_of_mem hx, haccepted x hx, hyoung x hx⟩

end Runs

namespace Sample

def entriesBegun : Memory.Entries := (Memory.begin 0 ⟨1⟩ digest binding Table.empty).1

def entriesSettled : Memory.Entries := (Memory.complete 1 digest binding ⟨1⟩ result entriesBegun).1

def rowsBegun : Pg.Rows := (Pg.begin 0 ⟨1⟩ digest binding Table.empty).1

def rowsSettled : Pg.Rows := (Pg.complete 1 digest binding ⟨1⟩ result rowsBegun).1

/-- A transaction is begun and settled in memory. -/
def memoryTrace : List (Transition (StoreState Memory.State) Call) :=
  [⟨⟨Table.empty, 0⟩, .begin 0 ⟨1⟩ digest binding (.ok (.acquired ⟨1⟩)), ⟨entriesBegun, 0⟩⟩,
    ⟨⟨entriesBegun, 0⟩, .complete 1 digest binding ⟨1⟩ result (.ok ()), ⟨entriesSettled, 1⟩⟩]

/-- The same in the database. -/
def pgTrace : List (Transition (StoreState Pg.SettlementRow) Call) :=
  [⟨⟨Table.empty, 0⟩, .begin 0 ⟨1⟩ digest binding (.ok (.acquired ⟨1⟩)), ⟨rowsBegun, 0⟩⟩,
    ⟨⟨rowsBegun, 0⟩, .complete 1 digest binding ⟨1⟩ result (.ok ()), ⟨rowsSettled, 1⟩⟩]

theorem memory_refines_pg_settled :
    Memory.cellAt entriesSettled digest = some (.settled binding result) ∧
      Memory.cellAt entriesSettled digest = Pg.cellAt rowsSettled digest := by
  have hm : Run memoryStore.Step ⟨Table.empty, 0⟩ memoryTrace ⟨entriesSettled, 1⟩ :=
    ⟨rfl, ⟨Nat.le_refl 0, rfl, rfl⟩, rfl, ⟨Nat.zero_le 1, rfl, rfl⟩, rfl⟩
  have hp : Run pgStore.Step ⟨Table.empty, 0⟩ pgTrace ⟨rowsSettled, 1⟩ :=
    ⟨rfl, ⟨Nat.le_refl 0, rfl, rfl⟩, rfl, ⟨Nat.zero_le 1, rfl, rfl⟩, rfl⟩
  have hsame : List.Forall₂ (fun x y => x.label.Same y.label) memoryTrace pgTrace :=
    .cons (.begin _ _) (.cons (.complete _ _) .nil)
  have haccepted : ∀ x ∈ memoryTrace, x.label.Accepted := by
    intro x hx
    simp only [memoryTrace, List.mem_cons, List.not_mem_nil, or_false] at hx
    rcases hx with rfl | rfl
    · exact ⟨⟨rfl, rfl⟩, rfl⟩
    · exact ⟨by decide +kernel, rfl⟩
  have hyoung : ∀ x ∈ memoryTrace, Young x.source.rows x.label := by
    intro x hx
    simp only [memoryTrace, List.mem_cons, List.not_mem_nil, or_false] at hx
    rcases hx with rfl | rfl
    · exact fun k s hk => by cases hk
    · exact trivial
  exact ⟨rfl, (memory_refines_pg hm hp hsame haccepted hyoung (by decide +kernel)).2 digest⟩

end Sample

end AgentBond.Payments
