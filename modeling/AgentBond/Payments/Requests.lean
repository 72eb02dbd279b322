import AgentBond.Payments.Conversation
import AgentBond.Payments.Laws

/-! # Requests beside each other

Any number of requests share a challenge store and a settlement store. Their
steps follow one another in any order, at the times of one clock; the
facilitator answers what it likes when it likes, and a request may stop anywhere.
-/

namespace AgentBond.Payments

open Foundation

/-- The state the requests share. -/
structure Shared (S : SettlementStore) (C : ChallengeStore) where
  challenges : Table Text C.Row
  settlements : StoreState S.Row

/-- The time of a step and the random values it draws. -/
structure Draw where
  now : ℕ
  bytes : Option (Bytes 16)
  lease : LeaseToken

/-- The call on the settlement store, with its reply. -/
def Ask.call (d : Draw) : (ask : Ask) → ask.Reply → Option Call
  | .begin digest binding, r => some (.begin d.now d.lease digest binding r)
  | .complete digest binding lease result, u => some (.complete d.now digest binding lease result u)
  | .fail digest binding lease, u => some (.fail d.now digest binding lease u)
  | _, _ => none

/-- What a request sees of a call. -/
def Call.event : Call → Event Ask Ask.Reply
  | .begin _ _ digest binding r => .replied (.begin digest binding) r
  | .complete _ digest binding lease result u => .replied (.complete digest binding lease result) u
  | .fail _ digest binding lease u => .replied (.fail digest binding lease) u

variable {S : SettlementStore} {C : ChallengeStore}

/-- What an event does to the stores. -/
inductive Effect : Shared S C → Event Ask Ask.Reply → Draw → Shared S C → Prop
  | issue {s : Shared S C} {cfg : X402ResourceConfig} {resource : ResourceInfo}
      {inputDigest : Text} {issuedAt : Int64} {r : Paid (PaymentRequirements × PaymentChallenge)}
      {d : Draw} {challenges : Table Text C.Row} (clock : s.settlements.clock ≤ d.now)
      (issued : C.issue d.bytes cfg resource inputDigest issuedAt s.challenges = (challenges, r)) :
      Effect s (.replied (.issue cfg resource inputDigest issuedAt) r) d
        ⟨challenges, { s.settlements with clock := d.now }⟩
  | getValid {s : Shared S C} {memo : Text} {now : Int64} {r : Paid PaymentChallenge} {d : Draw}
      {challenges : Table Text C.Row} (clock : s.settlements.clock ≤ d.now)
      (found : C.getValid memo now s.challenges = (challenges, r)) :
      Effect s (.replied (.getValid memo now) r) d
        ⟨challenges, { s.settlements with clock := d.now }⟩
  | settlement {s : Shared S C} {ask : Ask} {r : ask.Reply} {d : Draw} {call : Call}
      {settlements : StoreState S.Row} (called : ask.call d r = some call)
      (step : S.Step s.settlements call settlements) :
      Effect s (.replied ask r) d { s with settlements := settlements }
  | sent {s : Shared S C} {ask : Ask} {d : Draw} (clock : s.settlements.clock ≤ d.now) :
      Effect s (.sent ask) d { s with settlements := { s.settlements with clock := d.now } }
  | answered {s : Shared S C} {ask : Ask} (far : ask.Remote) {r : ask.Reply} {d : Draw}
      (clock : s.settlements.clock ≤ d.now) :
      Effect s (.replied ask r) d { s with settlements := { s.settlements with clock := d.now } }

/-- The rows of the tables are in no order. -/
def Reordered (s s' : Shared S C) : Prop :=
  s'.challenges.rows.Perm s.challenges.rows ∧
    s'.settlements.rows.rows.Perm s.settlements.rows.rows ∧
    s'.settlements.clock = s.settlements.clock

def rules (L : Libraries) (S : SettlementStore) (C : ChallengeStore) :
    Pool.Rules (Shared S C) Draw Order Ask Ask.Reply Outcome where
  program := invokePaidDemo L
  remote := Ask.Remote
  effect := Effect
  drift := Reordered

abbrev World (S : SettlementStore) (C : ChallengeStore) :=
  Pool ℕ (Shared S C) Order Ask Ask.Reply Outcome

abbrev Trace (S : SettlementStore) (C : ChallengeStore) :=
  List (Transition (World S C) (Act ℕ Draw Order Ask Ask.Reply))

/-- No request has been made, and the stores are empty. -/
def World.init (S : SettlementStore) (C : ChallengeStore) : World S C :=
  Pool.idle ⟨Table.empty, ⟨Table.empty, 0⟩⟩

/-- A run of requests over empty stores. -/
def Serves (L : Libraries) (tr : Trace S C) (w : World S C) : Prop :=
  Run (Pool.Step (rules L S C)) (World.init S C) tr w

/-- The outcome of a finished request. -/
def World.returned (w : World S C) (i : ℕ) (o : Order) (out : Outcome) : Prop :=
  ∃ f, w.flow i = some (o, f) ∧ f.outcome = some out

/-- What moves the requests on: one is made, or one goes on, with what the facilitator says if it is
waiting for that. -/
inductive Move
  | start (i : ℕ) (o : Order)
  | go (i : ℕ) (d : Draw) (verify : Paid VerifyResponse) (settle : Paid SettleResponse)

section Moves

variable (L : Libraries)

/-- The next state of a request that is ready to make this call, and what it says. -/
def Shared.answer (s : Shared S C) (d : Draw) (ask : Ask) (next : ask.Reply → Program) :
    Shared S C × Event Ask Ask.Reply × Flow Ask Ask.Reply Outcome :=
  match ask, next with
  | .issue cfg resource inputDigest issuedAt, next =>
    let issued := C.issue d.bytes cfg resource inputDigest issuedAt s.challenges
    (⟨issued.1, { s.settlements with clock := d.now }⟩,
      .replied (.issue cfg resource inputDigest issuedAt) issued.2, .ready (next issued.2))
  | .getValid memo now, next =>
    let found := C.getValid memo now s.challenges
    (⟨found.1, { s.settlements with clock := d.now }⟩, .replied (.getValid memo now) found.2,
      .ready (next found.2))
  | .begin digest binding, next =>
    let begun := S.begin d.now d.lease digest binding s.settlements.rows
    ({ s with settlements := ⟨begun.1, d.now⟩ }, .replied (.begin digest binding) begun.2,
      .ready (next begun.2))
  | .complete digest binding lease result, next =>
    let completed := S.complete d.now digest binding lease result s.settlements.rows
    ({ s with settlements := ⟨completed.1, d.now⟩ },
      .replied (.complete digest binding lease result) completed.2, .ready (next completed.2))
  | .fail digest binding lease, next =>
    let failed := S.fail d.now digest binding lease s.settlements.rows
    ({ s with settlements := ⟨failed.1, d.now⟩ }, .replied (.fail digest binding lease) failed.2,
      .ready (next failed.2))
  | .verify request, next =>
    ({ s with settlements := { s.settlements with clock := d.now } }, .sent (.verify request),
      .waiting (.verify request) next)
  | .settle request, next =>
    ({ s with settlements := { s.settlements with clock := d.now } }, .sent (.settle request),
      .waiting (.settle request) next)

/-- The transition of a move, if it is possible. -/
def World.move (w : World S C) :
    Move → Option (Transition (World S C) (Act ℕ Draw Order Ask Ask.Reply))
  | .start i o =>
    match w.flow i with
    | none => some ⟨w, .start i o,
        { w with flow := Function.update w.flow i (some (o, .ready (invokePaidDemo L o))) }⟩
    | some _ => none
  | .go i d verify settle =>
    if w.shared.settlements.clock ≤ d.now then
      match w.flow i with
      | some (o, .ready (.call ask next)) =>
        let (s, e, f) := w.shared.answer d ask next
        some ⟨w, .event i e d, ⟨s, Function.update w.flow i (some (o, f))⟩⟩
      | some (o, .waiting (.verify request) next) =>
        some ⟨w, .event i (.replied (.verify request) verify) d,
          ⟨{ w.shared with settlements := { w.shared.settlements with clock := d.now } },
            Function.update w.flow i (some (o, .ready (next verify)))⟩⟩
      | some (o, .waiting (.settle request) next) =>
        some ⟨w, .event i (.replied (.settle request) settle) d,
          ⟨{ w.shared with settlements := { w.shared.settlements with clock := d.now } },
            Function.update w.flow i (some (o, .ready (next settle)))⟩⟩
      | _ => none
    else none

/-- The trace of some moves, as far as they are possible. -/
def World.play (w : World S C) : List Move → Trace S C
  | [] => []
  | m :: moves =>
    match w.move L m with
    | some x => x :: x.target.play moves
    | none => []

/-- Where they lead. -/
def World.after (w : World S C) : List Move → World S C
  | [] => w
  | m :: moves =>
    match w.move L m with
    | some x => x.target.after moves
    | none => w

variable {L} {w : World S C} {m : Move}
  {x : Transition (World S C) (Act ℕ Draw Order Ask Ask.Reply)}

theorem Shared.answer_effect {s s' : Shared S C} {d : Draw} {ask : Ask} {next : ask.Reply → Program}
    {e : Event Ask Ask.Reply} {f : Flow Ask Ask.Reply Outcome}
    (hclock : s.settlements.clock ≤ d.now) (h : s.answer d ask next = (s', e, f)) :
    Effect s e d s' ∧ (Flow.ready (.call ask next)).Step Ask.Remote e f := by
  cases ask with
  | issue => cases h; exact ⟨.issue hclock rfl, .answer id _⟩
  | getValid => cases h; exact ⟨.getValid hclock rfl, .answer id _⟩
  | begin => cases h; exact ⟨.settlement rfl ⟨hclock, rfl, rfl⟩, .answer id _⟩
  | complete => cases h; exact ⟨.settlement rfl ⟨hclock, rfl, rfl⟩, .answer id _⟩
  | fail => cases h; exact ⟨.settlement rfl ⟨hclock, rfl, rfl⟩, .answer id _⟩
  | verify => cases h; exact ⟨.sent hclock, .send trivial⟩
  | settle => cases h; exact ⟨.sent hclock, .send trivial⟩

theorem World.move_step (h : w.move L m = some x) :
    x.source = w ∧ Pool.Step (rules L S C) x.source x.label x.target := by
  cases m with
  | start i o =>
    simp only [move] at h
    split at h
    · rename_i hnew
      cases h
      exact ⟨rfl, .start hnew o⟩
    · cases h
  | go i d verify settle =>
    simp only [move] at h
    split at h
    · rename_i hclock
      split at h
      · rename_i o ask next hflow
        cases h
        obtain ⟨heffect, hmoves⟩ := Shared.answer_effect hclock rfl
        exact ⟨rfl, .event hflow hmoves heffect⟩
      · rename_i o request next hflow
        cases h
        have far : (Ask.verify request).Remote := trivial
        exact ⟨rfl, .event hflow (.receive _) (.answered far hclock)⟩
      · rename_i o request next hflow
        cases h
        have far : (Ask.settle request).Remote := trivial
        exact ⟨rfl, .event hflow (.receive _) (.answered far hclock)⟩
      · cases h
    · cases h

/-- Every play is a run. -/
theorem World.run_play (w : World S C) (moves : List Move) :
    Run (Pool.Step (rules L S C)) w (w.play L moves) (w.after L moves) := by
  induction moves generalizing w with
  | nil => rfl
  | cons m moves ih =>
    unfold play after
    split
    · rename_i x hx
      obtain ⟨hsource, hstep⟩ := move_step hx
      exact ⟨hsource, hsource ▸ hstep, ih x.target⟩
    · rfl

end Moves

/-- The request is given the lease of a transaction, at a time. -/
def Grants (i : ℕ) (k : Text) (b : SettlementBinding) (l : LeaseToken) (t : ℕ)
    (x : Transition (World S C) (Act ℕ Draw Order Ask Ask.Reply)) : Prop :=
  ∃ outcome d, x.label = .event i (.replied (.begin k b) (.ok outcome)) d ∧
    outcome.granted = some l ∧ d.now = t

/-- The lease has been given back, or its result is stored. -/
def Released (l : LeaseToken) (tr : Trace S C) : Prop :=
  (∃ k b u, Pool.Happened (.replied (.fail k b l) u) tr) ∨
    ∃ k b result, Pool.Happened (.replied (.complete k b l result) (.ok ())) tr

section Effects

variable {s s' : Shared S C} {e : Event Ask Ask.Reply} {d : Draw}

/-- What an event means for the settlement store: a call, or time passing. -/
theorem Effect.settlements (h : Effect s e d s') :
    s.settlements.clock ≤ d.now ∧ s'.settlements.clock = d.now ∧
      (s'.settlements.rows = s.settlements.rows ∨
        ∃ ask r call, e = .replied ask r ∧ ask.call d r = some call ∧
          S.Step s.settlements call s'.settlements) := by
  cases h with
  | issue clock | getValid clock | sent clock | answered _ clock => exact ⟨clock, rfl, .inl rfl⟩
  | @settlement ask r _ call settlements called step =>
    obtain ⟨hclock, hnow, -⟩ := id step
    have hcall : call.now = d.now := by
      cases ask with
      | begin | complete | fail => cases called; rfl
      | issue | getValid | verify | settle => cases called
    rw [hcall] at hclock hnow
    exact ⟨hclock, hnow, .inr ⟨ask, r, call, rfl, called, step⟩⟩

theorem Effect.begin {k : Text} {b : SettlementBinding} {r : Paid BeginOutcome}
    (h : Effect s (.replied (.begin k b) r) d s') :
    S.Step s.settlements (.begin d.now d.lease k b r) s'.settlements := by
  cases h with
  | settlement called step =>
    cases called
    exact step
  | answered far => exact absurd far id

theorem Effect.complete {H : S.Lawful} {k : Text} {b : SettlementBinding} {l : LeaseToken}
    {result : PaidDemoResult} (h : Effect s (.replied (.complete k b l result) (.ok ())) d s') :
    H.cellAt s'.settlements.rows k = some (.settled b result) := by
  cases h with
  | settlement called step =>
    cases called
    obtain ⟨-, -, hcall⟩ := step
    obtain ⟨-, hcomplete | ⟨-, hfalse⟩⟩ := H.complete hcall
    · exact (Cell.complete_true hcomplete).2
    · cases hfalse
  | answered far => exact absurd far id

theorem Effect.fail {H : S.Lawful} {k : Text} {b : SettlementBinding} {l : LeaseToken}
    {u : Paid Unit} {t : ℕ} (h : Effect s (.replied (.fail k b l) u) d s') :
    H.cellAt s'.settlements.rows k ≠ some (.settling b l t) := by
  cases h with
  | settlement called step =>
    cases called
    obtain ⟨-, -, hcall⟩ := step
    obtain ⟨-, ok, hfail⟩ := H.fail hcall
    intro hcell
    rw [hcell] at hfail
    cases ok with
    | true => cases (Cell.fail_true hfail).2
    | false =>
      obtain ⟨hnot, hsame⟩ := Cell.fail_false hfail
      exact hnot t hsame.symm
  | answered far => exact absurd far id

theorem Effect.found (H : C.Lawful) {memo : Text} {now : Int64} {c : PaymentChallenge}
    (h : Effect s (.replied (.getValid memo now) (.ok c)) d s') :
    H.found s.challenges memo = some c ∧ now ≤ c.expiresAt := by
  cases h with
  | getValid clock found => exact (H.getValid found).2 c rfl
  | settlement called => cases called
  | answered far => exact absurd far id

theorem Effect.issued (H : C.Lawful) {k : Text} {c : PaymentChallenge} (h : Effect s e d s')
    (hc : H.found s'.challenges k = some c) :
    H.found s.challenges k = some c ∨
      c.memo = k ∧ ∃ cfg resource inputDigest issuedAt q,
        e = .replied (.issue cfg resource inputDigest issuedAt) (.ok (q, c)) ∧
          ∃ memo expiresAt, q = newRequirements cfg memo ∧
            c = newChallenge cfg resource inputDigest memo issuedAt expiresAt := by
  cases h with
  | issue clock issued =>
    obtain ⟨hfound, hnew⟩ := H.issue issued
    rcases hfound k c hc with h | ⟨hmemo, q, rfl⟩
    · exact .inl h
    · exact .inr ⟨hmemo, _, _, _, _, q, rfl, hnew q c rfl⟩
  | getValid clock found => exact .inl ((H.getValid found).1 k c hc)
  | settlement | sent | answered => exact .inl hc

end Effects

/-- The challenge has been issued. -/
def Issued (c : PaymentChallenge) (tr : Trace S C) : Prop :=
  ∃ cfg resource inputDigest issuedAt memo expiresAt,
    c = newChallenge cfg resource inputDigest memo issuedAt expiresAt ∧
      Pool.Happened (.replied (.issue cfg resource inputDigest issuedAt)
        (.ok (newRequirements cfg memo, c))) tr

/-- What the stores hold has happened: the challenges were issued, the results stored, and the
leases that run are with those they were given to. -/
structure Recorded (H : S.Lawful) (J : C.Lawful) (tr : Trace S C) (s : Shared S C) : Prop where
  issued : ∀ k c, J.found s.challenges k = some c → c.memo = k ∧ Issued c tr
  stored : ∀ k b result, H.cellAt s.settlements.rows k = some (.settled b result) →
    ∃ lease, Pool.Happened (.replied (.complete k b lease result) (.ok ())) tr
  held : ∀ x ∈ tr, ∀ i k b l t, Grants i k b l t x → ¬ Released l tr →
    s.settlements.clock ≤ t + terms.leaseTtl →
    H.cellAt s.settlements.rows k = some (.settling b l t)

section Runs

variable {L : Libraries} {H : S.Lawful} {J : C.Lawful} {tr tr' : Trace S C} {w : World S C}
  {s : Shared S C} {x : Transition (World S C) (Act ℕ Draw Order Ask Ask.Reply)}
  {c : PaymentChallenge} {l : LeaseToken}

theorem Issued.append (h : Issued c tr) : Issued c (tr ++ tr') := by
  obtain ⟨cfg, resource, inputDigest, issuedAt, memo, expiresAt, hc, hissued⟩ := h
  exact ⟨cfg, resource, inputDigest, issuedAt, memo, expiresAt, hc, hissued.append⟩

theorem Released.append (h : Released l tr) : Released l (tr ++ tr') := by
  rcases h with ⟨k, b, u, h⟩ | ⟨k, b, result, h⟩
  · exact .inl ⟨k, b, u, h.append⟩
  · exact .inr ⟨k, b, result, h.append⟩

theorem Ask.event_of_call {ask : Ask} {r : ask.Reply} {d : Draw} {call : Call}
    (h : ask.call d r = some call) : .replied ask r = call.event := by
  cases ask with
  | begin | complete | fail => cases h; rfl
  | issue | getValid | verify | settle => cases h

theorem Recorded.quiet (h : Recorded H J tr s) {s' : Shared S C}
    (hx : ∀ i e d, x.label ≠ .event i e d) (hs : s' = s ∨ Reordered s s') :
    Recorded H J (tr ++ [x]) s' := by
  have hfound : ∀ k, J.found s'.challenges k = J.found s.challenges k := by
    rcases hs with rfl | ⟨hperm, -, -⟩
    · exact fun _ => rfl
    · exact J.reorder hperm
  have hcell : ∀ k, H.cellAt s'.settlements.rows k = H.cellAt s.settlements.rows k := by
    rcases hs with rfl | ⟨-, hperm, -⟩
    · exact fun _ => rfl
    · exact H.reorder hperm
  have hclock : s'.settlements.clock = s.settlements.clock := by
    rcases hs with rfl | ⟨-, -, hclock⟩
    · rfl
    · exact hclock
  constructor
  · intro k c hc
    obtain ⟨hmemo, hissued⟩ := h.issued k c (hfound k ▸ hc)
    exact ⟨hmemo, hissued.append⟩
  · intro k b result hk
    obtain ⟨lease, hstored⟩ := h.stored k b result (hcell k ▸ hk)
    exact ⟨lease, hstored.append⟩
  · intro y hy i k b l t hgrant hreleased htime
    rw [hcell k]
    rcases List.mem_append.mp hy with hy | hy
    · exact h.held y hy i k b l t hgrant (fun hr => hreleased hr.append) (hclock ▸ htime)
    · obtain rfl := List.mem_singleton.mp hy
      obtain ⟨outcome, d, hlabel, -⟩ := hgrant
      exact absurd hlabel (hx _ _ _)

theorem Recorded.event (h : Recorded H J tr s) {s' : Shared S C} {i : ℕ}
    {e : Event Ask Ask.Reply} {d : Draw} (hx : x.label = .event i e d) (he : Effect s e d s') :
    Recorded H J (tr ++ [x]) s' := by
  obtain ⟨hclock, hnow, hrows⟩ := he.settlements
  constructor
  · intro k c hc
    rcases he.issued J hc with hold | ⟨hmemo, cfg, resource, inputDigest, issuedAt, q, rfl, memo,
      expiresAt, rfl, hnew⟩
    · obtain ⟨hmemo, hissued⟩ := h.issued k c hold
      exact ⟨hmemo, hissued.append⟩
    · exact ⟨hmemo, cfg, resource, inputDigest, issuedAt, memo, expiresAt, hnew,
        Pool.happened_last hx⟩
  · intro k b result hk
    rcases hrows with hsame | ⟨ask, r, call, rfl, hcall, hstep⟩
    · obtain ⟨lease, hstored⟩ := h.stored k b result (hsame ▸ hk)
      exact ⟨lease, hstored.append⟩
    · rcases H.settled hstep hk with hold | ⟨now, lease, rfl⟩
      · obtain ⟨lease, hstored⟩ := h.stored k b result hold
        exact ⟨lease, hstored.append⟩
      · rw [Ask.event_of_call hcall] at hx
        exact ⟨lease, Pool.happened_last hx⟩
  · intro y hy j k b l t hgrant hreleased htime
    rcases List.mem_append.mp hy with hy | hy
    · have hheld := h.held y hy j k b l t hgrant (fun hr => hreleased hr.append) (by omega)
      rcases hrows with hsame | ⟨ask, r, call, rfl, hcall, hstep⟩
      · rw [hsame, hheld]
      · have hlast : call.now ≤ t + terms.leaseTtl := by
          rw [← hstep.2.1]
          exact htime
        rcases H.held hstep hheld hlast with hkept | ⟨now, u, rfl⟩ | ⟨now, result, rfl⟩
        · exact hkept
        · rw [Ask.event_of_call hcall] at hx
          exact absurd (.inl ⟨k, b, u, Pool.happened_last hx⟩) hreleased
        · rw [Ask.event_of_call hcall] at hx
          exact absurd (.inr ⟨k, b, result, Pool.happened_last hx⟩) hreleased
    · obtain rfl := List.mem_singleton.mp hy
      obtain ⟨outcome, d', hlabel, hgranted, rfl⟩ := hgrant
      cases hx.symm.trans hlabel
      exact (H.granted he.begin hgranted).1

theorem recorded_of_run (h : Serves L tr w) (H : S.Lawful) (J : C.Lawful) :
    Recorded H J tr w.shared := by
  refine Pool.traced (I := Recorded H J) h ?_ (fun tr x hI hx hs => hI.quiet hx hs)
    fun tr x i e d hI hx he => hI.event hx he
  constructor
  · intro k c hc
    cases (J.empty k).symm.trans hc
  · intro k b result hk
    cases (H.empty k).symm.trans hk
  · intro x hx
    cases hx

theorem stage_of_run (h : Serves L tr w) {i : ℕ} {o : Order} {f : Flow Ask Ask.Reply Outcome}
    (hf : w.flow i = some (o, f)) : Stage L o (Pool.eventsOf i tr) f.outcome :=
  stage_of_leads ((Pool.led_of_run h).started o f hf rfl)

theorem stage_of_event {tr₁ tr₂ : Trace S C} (h : Serves L (tr₁ ++ x :: tr₂) w) {i : ℕ}
    {e : Event Ask Ask.Reply} {d : Draw} (hx : x.label = .event i e d) :
    Effect x.source.shared e d x.target.shared ∧
      ∃ o out, Stage L o (Pool.eventsOf i tr₁ ++ [e]) out := by
  obtain ⟨o, f, f', -, hmoves, heffect, hled⟩ := Pool.flow_of_event h rfl hx
  exact ⟨heffect, o, f'.outcome, stage_of_leads (hled.snoc hmoves)⟩

end Runs

end AgentBond.Payments
