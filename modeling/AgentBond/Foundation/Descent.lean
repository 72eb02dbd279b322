import Mathlib.Data.Set.Card
import Mathlib.Logic.Relation

/-! # Following links to their end

Where every element links to at most one other, the path from an element to the
end of its links is unique. It repeats nothing and lists exactly what the links
lead to.
-/

namespace Foundation

variable {α : Type} {next : α → Option α} {a b c : α} {path path' : List α}

/-- The first element links to the second. -/
def Follows (next : α → Option α) (a b : α) : Prop := next a = some b

/-- The links of the first element lead to the second. -/
abbrev LeadsTo (next : α → Option α) : α → α → Prop := Relation.ReflTransGen (Follows next)

/-- The path from an element to one without a link. -/
inductive Descent (next : α → Option α) : α → List α → Prop
  | last {a : α} (h : next a = none) : Descent next a [a]
  | step {a b : α} {path : List α} (h : next a = some b) (hb : Descent next b path) :
      Descent next a (a :: path)

theorem Descent.unique (h : Descent next a path) (h' : Descent next a path') : path = path' := by
  induction h generalizing path' with
  | last h =>
    cases h' with
    | last => rfl
    | step h' => cases h.symm.trans h'
  | step h _ ih =>
    cases h' with
    | last h' => cases h.symm.trans h'
    | step h' hb' =>
      obtain rfl := Option.some.inj (h.symm.trans h')
      rw [ih hb']

theorem Descent.mem_start (h : Descent next a path) : a ∈ path := by
  cases h <;> exact List.mem_cons_self

theorem Descent.exists_suffix (h : Descent next a path) (hb : b ∈ path) :
    ∃ path', Descent next b path' ∧ path'.length ≤ path.length := by
  induction h with
  | last h =>
    obtain rfl := List.mem_singleton.mp hb
    exact ⟨_, .last h, le_rfl⟩
  | step h hd ih =>
    rcases List.mem_cons.mp hb with rfl | hb
    · exact ⟨_, .step h hd, le_rfl⟩
    · obtain ⟨path', hd', hle⟩ := ih hb
      exact ⟨path', hd', hle.trans (Nat.le_succ _)⟩

theorem Descent.notMem (h : next a = some b) (hb : Descent next b path) : a ∉ path := by
  intro ha
  obtain ⟨path', hd', hle⟩ := hb.exists_suffix ha
  obtain rfl := hd'.unique (.step h hb)
  exact absurd hle (Nat.not_succ_le_self _)

/-- A path that ends repeats nothing. -/
theorem Descent.nodup (h : Descent next a path) : path.Nodup := by
  induction h with
  | last => exact List.nodup_singleton _
  | step h hd ih => exact List.nodup_cons.mpr ⟨hd.notMem h, ih⟩

theorem Descent.mem_iff (h : Descent next a path) : b ∈ path ↔ LeadsTo next a b := by
  induction h with
  | @last a h =>
    have hno : ∀ c, ¬ Follows next a c := fun c hc => by cases h.symm.trans hc
    exact List.mem_singleton.trans (Relation.reflTransGen_iff_eq hno).symm
  | @step a d path h hd ih =>
    rw [List.mem_cons, ih]
    constructor
    · rintro (rfl | hb)
      · exact .refl
      · exact .head h hb
    · intro hb
      rcases Relation.ReflTransGen.cases_head hb with rfl | ⟨c, hc, hb⟩
      · exact Or.inl rfl
      · obtain rfl := Option.some.inj (h.symm.trans hc)
        exact Or.inr hb

theorem Descent.mem_tail_iff (h : Descent next a path) :
    b ∈ path.tail ↔ Relation.TransGen (Follows next) a b := by
  cases h with
  | last h =>
    refine iff_of_false List.not_mem_nil fun hb => ?_
    obtain ⟨c, hc, -⟩ := Relation.TransGen.head'_iff.mp hb
    cases h.symm.trans hc
  | @step _ d path h hd =>
    rw [List.tail_cons, hd.mem_iff, Relation.TransGen.head'_iff]
    constructor
    · exact fun hb => ⟨d, h, hb⟩
    · rintro ⟨c, hc, hb⟩
      obtain rfl := Option.some.inj (h.symm.trans hc)
      exact hb

theorem Descent.irrefl (h : Descent next a path) (hb : LeadsTo next a b) :
    ¬ Relation.TransGen (Follows next) b b := by
  obtain ⟨path', hd', -⟩ := h.exists_suffix (h.mem_iff.mpr hb)
  intro hbb
  cases hd' with
  | last hn =>
    obtain ⟨c, hc, -⟩ := Relation.TransGen.head'_iff.mp hbb
    cases hn.symm.trans hc
  | step hn hd => exact hd.notMem hn ((Descent.step hn hd).mem_tail_iff.mpr hbb)

theorem exists_descent_iff :
    (∃ path, Descent next a path) ↔ ∃ b, LeadsTo next a b ∧ next b = none := by
  constructor
  · rintro ⟨path, h⟩
    induction h with
    | @last a h => exact ⟨a, .refl, h⟩
    | step h _ ih =>
      obtain ⟨b, hb, hend⟩ := ih
      exact ⟨b, .head h hb, hend⟩
  · rintro ⟨b, hb, hend⟩
    induction hb using Relation.ReflTransGen.head_induction_on with
    | refl => exact ⟨_, .last hend⟩
    | head h _ ih =>
      obtain ⟨path, hd⟩ := ih
      exact ⟨_, .step h hd⟩

/-- A path is as long as what it leads to is large. -/
theorem Descent.encard_eq (h : Descent next a path) :
    {b | LeadsTo next a b}.encard = path.length := by
  classical
  have hset : {b | LeadsTo next a b} = (path.toFinset : Set α) := by
    ext b
    rw [Finset.mem_coe, List.mem_toFinset]
    exact h.mem_iff.symm
  rw [hset, Set.encard_coe_eq_coe_finsetCard, List.toFinset_card_of_nodup h.nodup]

end Foundation
