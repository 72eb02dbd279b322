import AgentBond.Foundation.Interaction

/-! # Contracts of programs that make calls

A contract says which calls a program may make after the replies it has had, and
what it may return after them. A program that keeps its contract keeps it
whatever it is answered, however long its calls take.
-/

namespace Foundation

variable {κ α β : Type} {Reply : κ → Type}

/-- A call and its reply. -/
abbrev Exchange (κ : Type) (Reply : κ → Type) := (c : κ) × Reply c

/-- The calls that are allowed after some exchanges, and the results. -/
structure Contract (κ : Type) (Reply : κ → Type) (α : Type) where
  calls : List (Exchange κ Reply) → κ → Prop
  result : List (Exchange κ Reply) → α → Prop

namespace Prog

/-- The second program goes on with the result of the first. -/
def bind : Prog κ Reply α → (α → Prog κ Reply β) → Prog κ Reply β
  | done a, k => k a
  | call c next, k => call c fun r => bind (next r) k

/-- The program keeps the contract after the exchanges. -/
def Keeps (K : Contract κ Reply α) : List (Exchange κ Reply) → Prog κ Reply α → Prop
  | h, done a => K.result h a
  | h, call c next => K.calls h c ∧ ∀ r, Keeps K (h ++ [⟨c, r⟩]) (next r)

end Prog

/-- The exchanges of a program so far. -/
def exchanges (events : List (Event κ Reply)) : List (Exchange κ Reply) :=
  events.filterMap fun
    | .sent _ => none
    | .replied c r => some ⟨c, r⟩

/-- The event makes a call: it sends it, or answers it on the spot. -/
def Event.Makes (remote : κ → Prop) (c : κ) : Event κ Reply → Prop
  | .sent c' => c' = c
  | .replied c' _ => c' = c ∧ ¬ remote c

variable {remote : κ → Prop} {K : Contract κ Reply α} {h : List (Exchange κ Reply)}
  {p : Prog κ Reply α} {f : Flow κ Reply α} {events pre post : List (Event κ Reply)}
  {e : Event κ Reply} {c : κ} {a : α}

@[simp] theorem exchanges_append {events' : List (Event κ Reply)} :
    exchanges (events ++ events') = exchanges events ++ exchanges events' :=
  List.filterMap_append

/-- What a contract still asks of a flow. -/
def Flow.Keeps (remote : κ → Prop) (K : Contract κ Reply α) (h : List (Exchange κ Reply)) :
    Flow κ Reply α → Prop
  | .ready p => p.Keeps K h
  | .waiting c next => remote c ∧ ∀ r, (next r).Keeps K (h ++ [⟨c, r⟩])

theorem Flow.Keeps.step {f' : Flow κ Reply α} (hk : f.Keeps remote K h) (hs : f.Step remote e f') :
    f'.Keeps remote K (h ++ exchanges [e]) ∧ ∀ c, e.Makes remote c → K.calls h c := by
  cases hs with
  | answer here r =>
    refine ⟨hk.2 r, ?_⟩
    rintro c ⟨rfl, -⟩
    exact hk.1
  | send far =>
    refine ⟨⟨far, ?_⟩, ?_⟩
    · rw [show exchanges [Event.sent _] = ([] : List (Exchange κ Reply)) from rfl, List.append_nil]
      exact hk.2
    · rintro c rfl
      exact hk.1
  | receive r =>
    refine ⟨hk.2 r, ?_⟩
    rintro c ⟨rfl, here⟩
    exact absurd hk.1 here

theorem Flow.Keeps.leads {g : Flow κ Reply α} (hk : f.Keeps remote K h)
    (hl : f.Leads remote events g) : g.Keeps remote K (h ++ exchanges events) ∧
      ∀ pre e post, events = pre ++ e :: post → ∀ c, e.Makes remote c →
        K.calls (h ++ exchanges pre) c := by
  induction events generalizing f h with
  | nil =>
    obtain rfl : f = g := hl
    refine ⟨by simpa [exchanges] using hk, ?_⟩
    intro pre e post he
    cases pre <;> cases he
  | cons e events ih =>
    obtain ⟨f', hs, hl⟩ := hl
    obtain ⟨hk', hcalls⟩ := hk.step hs
    obtain ⟨hg, hlater⟩ := ih hk' hl
    rw [List.append_assoc, ← exchanges_append, List.singleton_append] at hg
    refine ⟨hg, ?_⟩
    intro pre e' post he c hc
    cases pre with
    | nil =>
      cases he
      simpa [exchanges] using hcalls c hc
    | cons e₁ pre =>
      cases he
      have hcalls' := hlater pre e' post rfl c hc
      rwa [List.append_assoc, ← exchanges_append, List.singleton_append] at hcalls'

/-- Whatever a program that keeps its contract is answered: every call it makes is allowed after the
exchanges before, and so is what it returns. -/
theorem Prog.Keeps.leads (hk : p.Keeps K []) (hl : (Flow.ready p).Leads remote events f) :
    (∀ pre e post, events = pre ++ e :: post → ∀ c, e.Makes remote c → K.calls (exchanges pre) c) ∧
      ∀ a, f.outcome = some a → K.result (exchanges events) a := by
  have hstart : (Flow.ready p).Keeps remote K [] := hk
  obtain ⟨hf, hcalls⟩ := hstart.leads hl
  refine ⟨hcalls, fun a ha => ?_⟩
  cases f with
  | waiting => cases ha
  | ready p =>
    cases p with
    | call => cases ha
    | done a' =>
      cases ha
      exact hf

section Transcripts

variable (remote) [DecidablePred remote] (node : (c : κ) → Reply c)

/-- What happens when every call is answered by its own answer. -/
def Prog.transcript : Prog κ Reply α → List (Event κ Reply)
  | done _ => []
  | call c next =>
    (if remote c then [.sent c] else []) ++ .replied c (node c) :: transcript (next (node c))

/-- What is returned then. -/
def Prog.value : Prog κ Reply α → α
  | done a => a
  | call c next => value (next (node c))

theorem Prog.leads_transcript (p : Prog κ Reply α) :
    (Flow.ready p).Leads remote (p.transcript remote node) (.ready (.done (p.value node))) := by
  induction p with
  | done a => rfl
  | call c next ih =>
    unfold transcript value
    split
    · rename_i far
      exact ⟨_, .send far, _, .receive (node c), ih (node c)⟩
    · rename_i here
      exact ⟨_, .answer here (node c), ih (node c)⟩

end Transcripts

theorem Prog.Keeps.mono {K' : Contract κ Reply α} (hk : p.Keeps K h)
    (hcalls : ∀ h c, K.calls h c → K'.calls h c) (hresult : ∀ h a, K.result h a → K'.result h a) :
    p.Keeps K' h := by
  induction p generalizing h with
  | done a => exact hresult h a hk
  | call c next ih => exact ⟨hcalls h c hk.1, fun r => ih r (hk.2 r)⟩

theorem Prog.Keeps.bind {K : Contract κ Reply β} {k : α → Prog κ Reply β}
    (hk : p.Keeps ⟨K.calls, fun h a => (k a).Keeps K h⟩ h) : (p.bind k).Keeps K h := by
  induction p generalizing h with
  | done a => exact hk
  | call c next ih => exact ⟨hk.1, fun r => ih r (hk.2 r)⟩

end Foundation
