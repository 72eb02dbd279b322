import AgentBond.Foundation.Register
import AgentBond.Indexer.Transactions

/-! # Public rows as registers

What an address shows in a public table is a register stamped with slots. A
projection writes the register of its kind; a tombstone erases all of them.
-/

namespace AgentBond.Indexer

open Foundation

/-- The row an address shows in the table of a kind, with its slot. -/
def cell (d : Db) (a : Pubkey) : ProjectionKind → Register ℕ ProjectionPayload
  | .config => (d.projConfig.get a).map fun r => (r.asOfSlot.toNat, .config r.row)
  | .provider => (d.projProviders.get a).map fun r => (r.asOfSlot.toNat, .provider r.row)
  | .providerBond => (d.projProviderBonds.get a).map fun r =>
    (r.asOfSlot.toNat, .providerBond r.row)
  | .job => (d.projJobs.get a).map fun r => (r.asOfSlot.toNat, .job r.row)
  | .challenge => (d.projChallenges.get a).map fun r => (r.asOfSlot.toNat, .challenge r.row)
  | .tombstone => none

/-- The value a payload has for the table of a kind. -/
def valueFor (kind : ProjectionKind) (payload : ProjectionPayload) : Option ProjectionPayload :=
  if payload.kind = kind ∧ kind ≠ .tombstone then some payload else none

variable {d d' : Db} {a address : Pubkey} {slot : UInt64} {kind : ProjectionKind}
  {payload : ProjectionPayload}

section Tables

variable {α : Type} {t : Table Pubkey (Projected α)} {f : α → ProjectionPayload}

theorem get_projectRow (row : α) (h : a ≠ address) :
    (projectRow t address slot row).get a = t.get a := by
  rw [projectRow, Table.get_upsertWhere, if_neg h]

theorem cell_projectRow (row : α) :
    ((projectRow t address slot row).get address).map (fun r => (r.asOfSlot.toNat, f r.row)) =
      Register.write ((t.get address).map fun r => (r.asOfSlot.toNat, f r.row)) slot.toNat
        (some (f row)) := by
  rw [projectRow, Table.get_upsertWhere, if_pos rfl]
  cases t.get address with
  | none => rfl
  | some old =>
    simp only [Option.map_some, Register.write, Register.hold, decide_eq_true_eq,
      UInt64.le_iff_toNat_le]
    split <;> rfl

theorem get_deleteRow (h : a ≠ address) : (deleteRow t address slot).get a = t.get a := by
  rw [deleteRow, Table.get_deleteWhere]
  cases t.get a <;> simp [Option.filter, h]

theorem cell_deleteRow :
    ((deleteRow t address slot).get address).map (fun r => (r.asOfSlot.toNat, f r.row)) =
      Register.write ((t.get address).map fun r => (r.asOfSlot.toNat, f r.row)) slot.toNat
        none := by
  rw [deleteRow, Table.get_deleteWhere]
  cases t.get address with
  | none => rfl
  | some old =>
    by_cases h : old.asOfSlot ≤ slot <;>
      simp [Option.filter, Register.write, Register.hold, h, UInt64.le_iff_toNat_le.symm]

end Tables

theorem cell_project_of_ne (h : a ≠ address) :
    cell (project d address slot payload) a kind = cell d a kind := by
  cases payload <;> cases kind <;>
    simp only [cell, project, get_projectRow _ h, get_deleteRow h]

theorem valueFor_tombstone : valueFor kind .tombstone = none :=
  if_neg fun h => h.2 h.1.symm

theorem cell_tombstone : cell (project d address slot .tombstone) address kind =
    Register.write (cell d address kind) slot.toNat none := by
  cases kind with
  | tombstone => rfl
  | _ => exact cell_deleteRow

theorem cell_kind (h : payload ≠ .tombstone) :
    cell (project d address slot payload) address payload.kind =
      Register.write (cell d address payload.kind) slot.toNat (some payload) := by
  cases payload with
  | tombstone => exact absurd rfl h
  | config c => exact cell_projectRow c
  | provider p => exact cell_projectRow p
  | providerBond b => exact cell_projectRow b
  | job j => exact cell_projectRow j
  | challenge c => exact cell_projectRow c

theorem cell_other (h : payload ≠ .tombstone) (hk : payload.kind ≠ kind) :
    cell (project d address slot payload) a kind = cell d a kind := by
  cases payload <;> cases kind <;> first | rfl | exact absurd rfl hk | exact absurd rfl h

/-- A projection writes the registers of its address, where those of other kinds are empty. -/
theorem cell_project (h : payload ≠ .tombstone → payload.kind ≠ kind → cell d address kind = none) :
    cell (project d address slot payload) address kind =
      Register.write (cell d address kind) slot.toNat (valueFor kind payload) := by
  by_cases ht : payload = .tombstone
  · subst ht
    rw [valueFor_tombstone, cell_tombstone]
  · by_cases hk : payload.kind = kind
    · subst hk
      have hv : valueFor payload.kind payload = some payload :=
        if_pos ⟨rfl, fun hk => ht (by cases payload <;> first | rfl | cases hk)⟩
      rw [hv, cell_kind ht]
    · have hv : valueFor kind payload = none := if_neg fun h => hk h.1
      rw [hv, cell_other ht hk, h ht hk]
      rfl

/-- The projection writes to the table of the kind, or deletes from all of them. -/
def Concerns (kind : ProjectionKind) (p : DecodedProjection) : Prop :=
  p.payload.kind = kind ∨ p.payload.kind = .tombstone

instance : DecidablePred (Concerns kind) := fun _ => inferInstanceAs (Decidable (_ ∨ _))

/-- Every account of the address is of this kind. -/
def Typed (κ : Pubkey → ProjectionKind) (p : DecodedProjection) : Prop :=
  p.payload = .tombstone ∨ p.payload.kind = κ p.address

/-- No address shows a row of a kind that is not its own. -/
def WellTyped (κ : Pubkey → ProjectionKind) (d : Db) : Prop :=
  ∀ a kind, kind ≠ κ a → cell d a kind = none

variable {κ : Pubkey → ProjectionKind} {p : DecodedProjection}

theorem cell_project_of_typed (hd : WellTyped κ d) (hp : Typed κ p) :
    cell (project d p.address p.slot p.payload) p.address kind =
      Register.write (cell d p.address kind) p.slot.toNat (valueFor kind p.payload) :=
  cell_project fun ht hk => hd _ _ fun he => hk ((hp.resolve_left ht).trans he.symm)

theorem WellTyped.project (hd : WellTyped κ d) (hp : Typed κ p) :
    WellTyped κ (project d p.address p.slot p.payload) := by
  intro a kind hk
  by_cases ha : a = p.address
  · subst ha
    have hv : valueFor kind p.payload = none := by
      refine if_neg ?_
      rintro ⟨he, ht⟩
      rcases hp with h | h
      · rw [h] at he; exact ht he.symm
      · exact hk (he.symm.trans h)
    rw [cell_project_of_typed hd hp, hv, hd _ _ hk]
    rfl
  · rw [cell_project_of_ne ha, hd a kind hk]

/-- The writes that projections make to the register of an address and a kind. -/
def writes (a : Pubkey) (kind : ProjectionKind) (ps : List DecodedProjection)
    (r : Register ℕ ProjectionPayload) : Register ℕ ProjectionPayload :=
  (ps.filter (·.address = a)).foldl
    (fun r p => Register.write r p.slot.toNat (valueFor kind p.payload)) r

theorem WellTyped.projectAll {ps : List DecodedProjection} (hd : WellTyped κ d)
    (hp : ∀ p ∈ ps, Typed κ p) : WellTyped κ (projectAll d ps) := by
  induction ps generalizing d with
  | nil => exact hd
  | cons p ps ih =>
    rw [List.forall_mem_cons] at hp
    exact ih (hd.project hp.1) hp.2

theorem cell_projectAll {ps : List DecodedProjection} (hd : WellTyped κ d)
    (hp : ∀ p ∈ ps, Typed κ p) :
    cell (projectAll d ps) a kind = writes a kind ps (cell d a kind) := by
  induction ps generalizing d with
  | nil => rfl
  | cons p ps ih =>
    rw [List.forall_mem_cons] at hp
    refine (ih (hd.project hp.1) hp.2).trans ?_
    by_cases ha : p.address = a
    · subst ha
      rw [cell_project_of_typed hd hp.1, writes, writes, List.filter_cons_of_pos (by simp),
        List.foldl_cons]
    · rw [cell_project_of_ne (Ne.symm ha), writes, writes, List.filter_cons_of_neg (by simp [ha])]

theorem writes_append (ps qs : List DecodedProjection) (r : Register ℕ ProjectionPayload) :
    writes a kind (ps ++ qs) r = writes a kind qs (writes a kind ps r) := by
  rw [writes, writes, writes, List.filter_append, List.foldl_append]

theorem writes_cons_of_ne {ps : List DecodedProjection} {r : Register ℕ ProjectionPayload}
    (h : p.address ≠ a) : writes a kind (p :: ps) r = writes a kind ps r := by
  rw [writes, writes, List.filter_cons_of_neg (by simpa using h)]

theorem writes_cons_self {ps : List DecodedProjection} {r : Register ℕ ProjectionPayload} :
    writes p.address kind (p :: ps) r =
      writes p.address kind ps (Register.write r p.slot.toNat (valueFor kind p.payload)) := by
  rw [writes, writes, List.filter_cons_of_pos (by simp), List.foldl_cons]

theorem eq_tombstone_of_kind (h : payload.kind = .tombstone) : payload = .tombstone := by
  cases payload <;> first | rfl | cases h

theorem cell_projectAll_of_concerns (ps : List DecodedProjection) :
    cell (projectAll d ps) a kind =
      writes a kind (ps.filter (Concerns kind ·)) (cell d a kind) := by
  induction ps generalizing d with
  | nil => rfl
  | cons p ps ih =>
    refine (ih (d := project d p.address p.slot p.payload)).trans ?_
    by_cases hp : Concerns kind p
    · rw [List.filter_cons_of_pos (by simpa using hp)]
      by_cases ha : p.address = a
      · subst ha
        rw [writes_cons_self, cell_project]
        intro ht hk
        exact absurd (eq_tombstone_of_kind (hp.resolve_left hk)) ht
      · rw [writes_cons_of_ne ha, cell_project_of_ne (Ne.symm ha)]
    · rw [List.filter_cons_of_neg (by simpa using hp)]
      rw [cell_other (fun ht => hp (.inr (congrArg ProjectionPayload.kind ht))) fun hk =>
        hp (.inl hk)]

/-- Above the floor only the projections above it show. -/
theorem above_writes (floor : ℕ) (ps : List DecodedProjection)
    (r : Register ℕ ProjectionPayload) : Register.above floor (writes a kind ps r) =
      writes a kind (ps.filter fun p => floor < p.slot.toNat) (Register.above floor r) := by
  induction ps generalizing r with
  | nil => rfl
  | cons p ps ih =>
    by_cases ha : p.address = a
    · subst ha
      rw [writes_cons_self, ih]
      by_cases hp : floor < p.slot.toNat
      · rw [List.filter_cons_of_pos (by simpa using hp), writes_cons_self,
          Register.above_write_of_lt hp]
      · rw [List.filter_cons_of_neg (by simpa using hp),
          Register.above_write_of_le (not_lt.mp hp)]
    · rw [writes_cons_of_ne ha, ih]
      by_cases hp : floor < p.slot.toNat
      · rw [List.filter_cons_of_pos (by simpa using hp), writes_cons_of_ne ha]
      · rw [List.filter_cons_of_neg (by simpa using hp)]

theorem writes_of_getLast? {ps : List DecodedProjection} {r : Register ℕ ProjectionPayload}
    (hs : ∀ p ∈ ps, p.slot = slot) (hlast : (ps.filter (·.address = a)).getLast? = some p) :
    writes a kind ps r = Register.write r slot.toNat (valueFor kind p.payload) := by
  obtain ⟨before, hq⟩ := List.getLast?_eq_some_iff.mp hlast
  have hslot : ∀ q ∈ before ++ [p], q.slot = slot := by
    intro q hmem
    rw [← hq] at hmem
    exact hs q (List.mem_filter.mp hmem).1
  calc writes a kind ps r
      = (before ++ [p]).foldl
          (fun r q => Register.write r slot.toNat (valueFor kind q.payload)) r := by
        rw [writes, hq]
        exact List.foldl_ext _ _ _ fun r q hmem => by rw [hslot q hmem]
    _ = ((before.map fun q => valueFor kind q.payload) ++ [valueFor kind p.payload]).foldl
          (fun r v => Register.write r slot.toNat v) r := by
        rw [← List.map_singleton (f := fun q : DecodedProjection => valueFor kind q.payload),
          ← List.map_append, List.foldl_map]
    _ = Register.write r slot.toNat (valueFor kind p.payload) := Register.foldl_write r _ _ _

theorem writes_of_none {ps : List DecodedProjection} {r : Register ℕ ProjectionPayload}
    (h : ∀ p ∈ ps, p.address ≠ a) : writes a kind ps r = r := by
  have hnil : ps.filter (·.address = a) = [] := by
    rw [List.filter_eq_nil_iff]
    intro p hp
    simpa using h p hp
  rw [writes, hnil, List.foldl_nil]

end AgentBond.Indexer
