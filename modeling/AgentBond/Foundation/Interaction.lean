import AgentBond.Foundation.Transition
import Mathlib.Logic.Function.Basic

/-! # Programs that make calls

A program is the tree of the calls it makes and of what it does with the
replies. A call is either answered on the spot or sent and answered later. Many
programs run beside each other on a shared state: each goes its own way through
its tree, whatever the others do in between.
-/

namespace Foundation

/-- A program over calls, each with its own type of replies. -/
inductive Prog (κ : Type) (Reply : κ → Type) (α : Type)
  | done (a : α)
  | call (c : κ) (next : Reply c → Prog κ Reply α)

/-- What others see of a program. -/
inductive Event (κ : Type) (Reply : κ → Type)
  | sent (c : κ)
  | replied (c : κ) (r : Reply c)

/-- A program under way. -/
inductive Flow (κ : Type) (Reply : κ → Type) (α : Type)
  | ready (p : Prog κ Reply α)
  | waiting (c : κ) (next : Reply c → Prog κ Reply α)

variable {ι σ δ ω κ α : Type} {Reply : κ → Type}

namespace Flow

/-- What a finished program has returned. -/
def outcome : Flow κ Reply α → Option α
  | ready (.done a) => some a
  | _ => none

/-- Remote calls are sent first, all others are answered on the spot. -/
inductive Step (remote : κ → Prop) : Flow κ Reply α → Event κ Reply → Flow κ Reply α → Prop
  | answer {c : κ} {next : Reply c → Prog κ Reply α} (here : ¬ remote c) (r : Reply c) :
      Step remote (.ready (.call c next)) (.replied c r) (.ready (next r))
  | send {c : κ} {next : Reply c → Prog κ Reply α} (far : remote c) :
      Step remote (.ready (.call c next)) (.sent c) (.waiting c next)
  | receive {c : κ} {next : Reply c → Prog κ Reply α} (r : Reply c) :
      Step remote (.waiting c next) (.replied c r) (.ready (next r))

/-- The events lead from the first flow to the last. -/
def Leads (remote : κ → Prop) : Flow κ Reply α → List (Event κ Reply) → Flow κ Reply α → Prop
  | f, [], g => f = g
  | f, e :: events, g => ∃ f', f.Step remote e f' ∧ Leads remote f' events g

variable {remote : κ → Prop} {f g h : Flow κ Reply α} {e : Event κ Reply}
  {events events' : List (Event κ Reply)} {c : κ} {next : Reply c → Prog κ Reply α} {a : α}

theorem leads_append_iff :
    f.Leads remote (events ++ events') h ↔
      ∃ g, f.Leads remote events g ∧ g.Leads remote events' h := by
  induction events generalizing f with
  | nil => exact ⟨fun h => ⟨f, rfl, h⟩, fun ⟨_, hf, h⟩ => hf ▸ h⟩
  | cons e events ih =>
    simp only [List.cons_append, Leads, ih]
    exact ⟨fun ⟨f', hs, g, h₁, h₂⟩ => ⟨g, ⟨f', hs, h₁⟩, h₂⟩,
      fun ⟨g, ⟨f', hs, h₁⟩, h₂⟩ => ⟨f', hs, g, h₁, h₂⟩⟩

theorem Leads.snoc (hf : f.Leads remote events g) (hg : g.Step remote e h) :
    f.Leads remote (events ++ [e]) h :=
  leads_append_iff.mpr ⟨g, hf, h, hg, rfl⟩

theorem Leads.answered (hl : f.Leads remote (events ++ .sent c :: e :: events') g) :
    ∃ r, e = .replied c r := by
  obtain ⟨f₁, -, f₂, hsent, f₃, hnext, -⟩ := leads_append_iff.mp hl
  cases hsent with
  | send far =>
    cases hnext with
    | receive r => exact ⟨r, rfl⟩

theorem leads_done :
    (ready (.done a)).Leads remote events g ↔ events = [] ∧ g = .ready (.done a) := by
  constructor
  · intro h
    cases events with
    | nil => exact ⟨rfl, h.symm⟩
    | cons e events =>
      obtain ⟨f', hs, -⟩ := h
      cases hs
  · rintro ⟨rfl, rfl⟩
    rfl

theorem leads_local (here : ¬ remote c) :
    (ready (.call c next)).Leads remote events g ↔
      events = [] ∧ g = .ready (.call c next) ∨
        ∃ r rest, events = .replied c r :: rest ∧ (ready (next r)).Leads remote rest g := by
  constructor
  · intro h
    cases events with
    | nil => exact .inl ⟨rfl, h.symm⟩
    | cons e rest =>
      obtain ⟨f', hs, h⟩ := h
      cases hs with
      | answer _ r => exact .inr ⟨r, rest, rfl, h⟩
      | send far => exact absurd far here
  · rintro (⟨rfl, rfl⟩ | ⟨r, rest, rfl, h⟩)
    · rfl
    · exact ⟨_, .answer here r, h⟩

theorem leads_remote (far : remote c) :
    (ready (.call c next)).Leads remote events g ↔
      events = [] ∧ g = .ready (.call c next) ∨ events = [.sent c] ∧ g = .waiting c next ∨
        ∃ r rest, events = .sent c :: .replied c r :: rest ∧
          (ready (next r)).Leads remote rest g := by
  constructor
  · intro h
    cases events with
    | nil => exact .inl ⟨rfl, h.symm⟩
    | cons e rest =>
      obtain ⟨f', hs, h⟩ := h
      cases hs with
      | answer here _ => exact absurd far here
      | send _ =>
        cases rest with
        | nil => exact .inr (.inl ⟨rfl, h.symm⟩)
        | cons e rest =>
          obtain ⟨f', hs, h⟩ := h
          cases hs with
          | receive r => exact .inr (.inr ⟨r, rest, rfl, h⟩)
  · rintro (⟨rfl, rfl⟩ | ⟨rfl, rfl⟩ | ⟨r, rest, rfl, h⟩)
    · rfl
    · exact ⟨_, .send far, rfl⟩
    · exact ⟨_, .send far, _, .receive r, h⟩

end Flow

/-- Programs that run beside each other on a shared state, each with the order it was started on. -/
structure Pool (ι σ ω κ : Type) (Reply : κ → Type) (α : Type) where
  shared : σ
  flow : ι → Option (ω × Flow κ Reply α)

/-- What happens in a pool: a program starts, a program goes on, with what the step draws, or the
shared state changes by itself. -/
inductive Act (ι δ ω κ : Type) (Reply : κ → Type)
  | start (i : ι) (order : ω)
  | event (i : ι) (e : Event κ Reply) (draw : δ)
  | drift

namespace Pool

variable [DecidableEq ι]

/-- The program an order starts, the calls that are sent, what an event does to the shared state,
and how that state changes by itself. -/
structure Rules (σ δ ω κ : Type) (Reply : κ → Type) (α : Type) where
  program : ω → Prog κ Reply α
  remote : κ → Prop
  effect : σ → Event κ Reply → δ → σ → Prop
  drift : σ → σ → Prop

inductive Step (R : Rules σ δ ω κ Reply α) :
    Pool ι σ ω κ Reply α → Act ι δ ω κ Reply → Pool ι σ ω κ Reply α → Prop
  | start {P : Pool ι σ ω κ Reply α} {i : ι} (new : P.flow i = none) (order : ω) :
      Step R P (.start i order)
        { P with flow := Function.update P.flow i (some (order, .ready (R.program order))) }
  | event {P : Pool ι σ ω κ Reply α} {i : ι} {order : ω} {f f' : Flow κ Reply α}
      {e : Event κ Reply} {draw : δ} {s : σ} (here : P.flow i = some (order, f))
      (moves : f.Step R.remote e f') (effect : R.effect P.shared e draw s) :
      Step R P (.event i e draw) ⟨s, Function.update P.flow i (some (order, f'))⟩
  | drift {P : Pool ι σ ω κ Reply α} {s : σ} (drifts : R.drift P.shared s) :
      Step R P .drift { P with shared := s }

/-- The event of this program in a transition. -/
def eventOf (i : ι) : Act ι δ ω κ Reply → Option (Event κ Reply)
  | .event j e _ => if j = i then some e else none
  | _ => none

/-- The events of one program. -/
def eventsOf (i : ι) (tr : List (Transition (Pool ι σ ω κ Reply α) (Act ι δ ω κ Reply))) :
    List (Event κ Reply) :=
  tr.filterMap fun x => eventOf i x.label

/-- Some program has gone through this event. -/
def Happened (e : Event κ Reply)
    (tr : List (Transition (Pool ι σ ω κ Reply α) (Act ι δ ω κ Reply))) : Prop :=
  ∃ i : ι, e ∈ eventsOf i tr

/-- A pool in which nothing has started. -/
def idle (s : σ) : Pool ι σ ω κ Reply α := ⟨s, fun _ => none⟩

variable {R : Rules σ δ ω κ Reply α} {P Q : Pool ι σ ω κ Reply α} {i j : ι} {order : ω}
  {f : Flow κ Reply α} {e : Event κ Reply} {draw : δ}
  {tr tr' : List (Transition (Pool ι σ ω κ Reply α) (Act ι δ ω κ Reply))}
  {x : Transition (Pool ι σ ω κ Reply α) (Act ι δ ω κ Reply)}

theorem eventsOf_append : eventsOf i (tr ++ tr') = eventsOf i tr ++ eventsOf i tr' :=
  List.filterMap_append

theorem mem_eventsOf : e ∈ eventsOf i tr ↔ ∃ x ∈ tr, ∃ draw, x.label = .event i e draw := by
  rw [eventsOf, List.mem_filterMap]
  refine exists_congr fun x => and_congr_right fun _ => ?_
  cases x.label with
  | start j o => exact ⟨fun h => (by cases h), fun ⟨_, h⟩ => (by cases h)⟩
  | drift => exact ⟨fun h => (by cases h), fun ⟨_, h⟩ => (by cases h)⟩
  | event j e' d =>
    rw [eventOf]
    constructor
    · intro h
      obtain ⟨rfl, he⟩ := Option.ite_none_right_eq_some.mp h
      exact ⟨d, by rw [Option.some_inj.mp he]⟩
    · rintro ⟨_, h⟩
      cases h
      exact if_pos rfl

theorem Happened.append (h : Happened e tr) : Happened e (tr ++ tr') := by
  obtain ⟨i, hi⟩ := h
  refine ⟨i, ?_⟩
  rw [eventsOf_append]
  exact List.mem_append_left _ hi

theorem happened_last (h : x.label = .event i e draw) : Happened e (tr ++ [x]) :=
  ⟨i, mem_eventsOf.mpr ⟨x, by simp, draw, h⟩⟩

theorem happened_snoc (h : Happened e (tr ++ [x])) :
    Happened e tr ∨ ∃ i draw, x.label = .event i e draw := by
  obtain ⟨i, hi⟩ := h
  rw [eventsOf_append, List.mem_append] at hi
  rcases hi with hi | hi
  · exact .inl ⟨i, hi⟩
  · obtain ⟨y, hy, draw, hlabel⟩ := mem_eventsOf.mp hi
    exact .inr ⟨i, draw, List.mem_singleton.mp hy ▸ hlabel⟩

theorem Step.quiet {a : Act ι δ ω κ Reply} (h : Step R P a Q)
    (ha : ∀ i e draw, a ≠ .event i e draw) : Q.shared = P.shared ∨ R.drift P.shared Q.shared := by
  cases h with
  | start new order => exact .inl rfl
  | event here moves effect => exact absurd rfl (ha _ _ _)
  | drift drifts => exact .inr drifts

/-- What holds of the shared state and the trace, and is kept by the effects of events and by what
happens without them, holds along every run. -/
theorem traced {I : List (Transition (Pool ι σ ω κ Reply α) (Act ι δ ω κ Reply)) → σ → Prop}
    (h : Run (Step R) P tr Q) (h0 : I [] P.shared)
    (hquiet : ∀ tr x, I tr x.source.shared → (∀ i e draw, x.label ≠ .event i e draw) →
      x.target.shared = x.source.shared ∨ R.drift x.source.shared x.target.shared →
      I (tr ++ [x]) x.target.shared)
    (hevent : ∀ tr x i e draw, I tr x.source.shared → x.label = .event i e draw →
      R.effect x.source.shared e draw x.target.shared → I (tr ++ [x]) x.target.shared) :
    I tr Q.shared := by
  induction tr using List.reverseRecOn generalizing Q with
  | nil =>
    obtain rfl : P = Q := h
    exact h0
  | append_singleton tr x ih =>
    obtain ⟨t, h₁, rfl, hx, rfl⟩ := Run.append_iff.mp h
    have hI := ih h₁
    by_cases hlabel : ∃ i e draw, x.label = .event i e draw
    · obtain ⟨i, e, draw, hlabel⟩ := hlabel
      obtain ⟨source, label, target⟩ := x
      change Step R source label target at hx
      cases hx with
      | event here moves effect => exact hevent tr _ _ _ _ hI rfl effect
      | _ => cases hlabel
    · have hno : ∀ i e draw, x.label ≠ .event i e draw := fun i e draw h => hlabel ⟨i, e, draw, h⟩
      exact hquiet tr x hI hno (hx.quiet hno)

/-- Where the events before a transition of a program have led it. -/
structure Led (R : Rules σ δ ω κ Reply α) (P Q : Pool ι σ ω κ Reply α) (i : ι)
    (events : List (Event κ Reply)) : Prop where
  unstarted : Q.flow i = none → P.flow i = none ∧ events = []
  started : ∀ order f, Q.flow i = some (order, f) → P.flow i = none →
    (Flow.ready (R.program order)).Leads R.remote events f

theorem Led.step (h : Led R P Q i (eventsOf i tr)) {a : Act ι δ ω κ Reply}
    {Q' : Pool ι σ ω κ Reply α} (hs : Step R Q a Q') :
    Led R P Q' i (eventsOf i (tr ++ [⟨Q, a, Q'⟩])) := by
  rw [eventsOf_append]
  have hlast : ∀ o : Option (Event κ Reply), eventOf i a = o →
      eventsOf i [(⟨Q, a, Q'⟩ : Transition (Pool ι σ ω κ Reply α) _)] = o.toList := by
    rintro o rfl
    cases h : eventOf i a <;> simp [eventsOf, h]
  cases hs with
  | @start j new order =>
    rw [hlast none rfl, Option.toList_none, List.append_nil]
    by_cases hij : i = j
    · subst hij
      obtain ⟨hP, hev⟩ := h.unstarted new
      constructor
      · intro hn
        cases (Function.update_self ..).symm.trans hn
      · intro order' f hf _
        cases (Function.update_self ..).symm.trans hf
        rw [hev]
        rfl
    · constructor
      · intro hn
        exact h.unstarted ((Function.update_of_ne hij _ _).symm.trans hn)
      · intro order' f hf
        exact h.started order' f ((Function.update_of_ne hij _ _).symm.trans hf)
  | @event j order f f' e draw s here moves _ =>
    by_cases hij : i = j
    · subst hij
      rw [hlast (some e) (if_pos rfl), Option.toList_some]
      constructor
      · intro hn
        cases (Function.update_self ..).symm.trans hn
      · intro order' g hg hP
        cases (Function.update_self ..).symm.trans hg
        exact (h.started order f here hP).snoc moves
    · rw [hlast none (if_neg (Ne.symm hij)), Option.toList_none, List.append_nil]
      constructor
      · intro hn
        exact h.unstarted ((Function.update_of_ne hij _ _).symm.trans hn)
      · intro order' g hg
        exact h.started order' g ((Function.update_of_ne hij _ _).symm.trans hg)
  | drift _ =>
    rw [hlast none rfl, Option.toList_none, List.append_nil]
    exact ⟨h.unstarted, h.started⟩

/-- Every program is where its own events have led it, whatever the others did. -/
theorem led_of_run (h : Run (Step R) P tr Q) : Led R P Q i (eventsOf i tr) := by
  induction tr using List.reverseRecOn generalizing Q with
  | nil =>
    obtain rfl : P = Q := h
    exact ⟨fun hn => ⟨hn, rfl⟩, fun order f hf hn => by cases hn.symm.trans hf⟩
  | append_singleton tr x ih =>
    obtain ⟨t, h₁, rfl, hx, rfl⟩ := Run.append_iff.mp h
    exact (ih h₁).step hx

theorem started_of_run (h : Run (Step R) P tr Q) (hP : P.flow i = none)
    (hQ : Q.flow i = some (order, f)) : ∃ x ∈ tr, x.label = .start i order := by
  induction tr using List.reverseRecOn generalizing Q f with
  | nil =>
    obtain rfl : P = Q := h
    cases hP.symm.trans hQ
  | append_singleton tr x ih =>
    obtain ⟨t, h₁, rfl, hx, rfl⟩ := Run.append_iff.mp h
    have hbefore : ∀ g, x.source.flow i = some (order, g) →
        ∃ y ∈ tr ++ [x], y.label = .start i order := by
      intro g hg
      obtain ⟨y, hy, hlabel⟩ := ih h₁ hg
      exact ⟨y, List.mem_append_left _ hy, hlabel⟩
    obtain ⟨source, label, target⟩ := x
    change Step R source label target at hx
    cases hx with
    | @start j new order' =>
      by_cases hij : i = j
      · subst hij
        cases (Function.update_self ..).symm.trans hQ
        exact ⟨_, List.mem_append_right _ List.mem_cons_self, rfl⟩
      · exact hbefore f ((Function.update_of_ne hij _ _).symm.trans hQ)
    | @event j order' g g' e draw s here moves _ =>
      by_cases hij : i = j
      · subst hij
        cases (Function.update_self ..).symm.trans hQ
        exact hbefore g here
      · exact hbefore f ((Function.update_of_ne hij _ _).symm.trans hQ)
    | drift _ => exact hbefore f hQ

theorem flow_of_event (h : Run (Step R) P (tr ++ x :: tr') Q) (hP : P.flow i = none)
    (hx : x.label = .event i e draw) :
    ∃ order f f', x.source.flow i = some (order, f) ∧ f.Step R.remote e f' ∧
      R.effect x.source.shared e draw x.target.shared ∧
      (Flow.ready (R.program order)).Leads R.remote (eventsOf i tr) f := by
  obtain ⟨h₁, hs, -⟩ := h.split
  have hled : Led R P x.source i (eventsOf i tr) := led_of_run h₁
  rw [hx] at hs
  generalize x.source = S at hs hled
  generalize x.target = T at hs
  cases hs with
  | event here moves effect => exact ⟨_, _, _, here, moves, effect, hled.started _ _ here hP⟩

end Pool

end Foundation
