import AgentBond.Payments.Resource

/-! # The conversation of a request

Whatever the stores and the facilitator answer, a request says one of a few
things: it asks for a price, or finds the challenge of its payment, asks for the
lease of its transaction, has the facilitator verify and then settle the payment
once, and stores the result or gives the lease back.
-/

namespace AgentBond.Payments

open Foundation

section Stages

variable (L : Libraries)

/-- The payment has been read from the header of the request and answers the challenge. -/
structure Payment.Valid (p : Payment) : Prop where
  header : ∃ header, p.order.paymentHeader = some header ∧
    decodePaymentSignatureHeader L header = .ok p.payload
  answers : Answers p.payload p.challenge p.order.nowUnix (inputDigest L p.order.input) p.tx

/-- What the request has asked until the store has answered it. -/
def Payment.begun (p : Payment) (r : Paid BeginOutcome) : Conversation :=
  [.replied (.getValid p.challenge.memo p.order.nowUnix) (.ok p.challenge),
    .replied (.begin (p.digestKey L) (p.binding L)) r]

/-- The exchange with the facilitator that verifies the payment. -/
def Payment.verified (p : Payment) (r : Paid VerifyResponse) : Conversation :=
  [.sent (.verify p.request), .replied (.verify p.request) r]

/-- The exchange that settles it. -/
def Payment.settled (p : Payment) (r : Paid SettleResponse) : Conversation :=
  [.sent (.settle p.request), .replied (.settle p.request) r]

/-- The result of a settled payment. -/
def Payment.Result (p : Payment) (settle : SettleResponse) (result : PaidDemoResult) : Prop :=
  settle.success = true ∧ result.body = demoBody L p.order.input ∧
    encodePaymentResponseHeader settle = .ok result.paymentResponseHeader

/-- How far a request that holds a lease has got, and what it has made of it. -/
inductive Holding (p : Payment) (lease : LeaseToken) : Conversation → Option Outcome → Prop
  | leased : Holding p lease [] none
  | verifying : Holding p lease [.sent (.verify p.request)] none
  | unverified (r : Paid VerifyResponse) (invalid : ∀ v, r = .ok v → v.isValid = false) :
      Holding p lease (p.verified r) none
  | unverifiedFailed (r : Paid VerifyResponse) (invalid : ∀ v, r = .ok v → v.isValid = false)
      (u : Paid Unit) (e : PaymentError) :
      Holding p lease (p.verified r ++ [.replied (.fail (p.digestKey L) (p.binding L) lease) u])
        (some (.error e))
  | verified (v : VerifyResponse) (valid : v.isValid = true) :
      Holding p lease (p.verified (.ok v)) none
  | settling (v : VerifyResponse) (valid : v.isValid = true) :
      Holding p lease (p.verified (.ok v) ++ [.sent (.settle p.request)]) none
  | unsettled (v : VerifyResponse) (valid : v.isValid = true) (r : Paid SettleResponse)
      (failed : ∀ s, r = .ok s → s.success = false) :
      Holding p lease (p.verified (.ok v) ++ p.settled r) none
  | unsettledFailed (v : VerifyResponse) (valid : v.isValid = true) (r : Paid SettleResponse)
      (failed : ∀ s, r = .ok s → s.success = false) (u : Paid Unit) (e : PaymentError) :
      Holding p lease (p.verified (.ok v) ++ p.settled r ++
        [.replied (.fail (p.digestKey L) (p.binding L) lease) u]) (some (.error e))
  | unwritable (v : VerifyResponse) (valid : v.isValid = true) (s : SettleResponse)
      (success : s.success = true) (e : PaymentError)
      (header : encodePaymentResponseHeader s = .error e) :
      Holding p lease (p.verified (.ok v) ++ p.settled (.ok s)) (some (.error e))
  | settled (v : VerifyResponse) (valid : v.isValid = true) (s : SettleResponse)
      (result : PaidDemoResult) (made : p.Result L s result) :
      Holding p lease (p.verified (.ok v) ++ p.settled (.ok s)) none
  | completed (v : VerifyResponse) (valid : v.isValid = true) (s : SettleResponse)
      (result : PaidDemoResult) (made : p.Result L s result) (u : Paid Unit) :
      Holding p lease (p.verified (.ok v) ++ p.settled (.ok s) ++
        [.replied (.complete (p.digestKey L) (p.binding L) lease result) u])
        (some (u.map fun _ => .ok result))

/-- How far a request has got, and its outcome if it is finished. -/
inductive Stage (o : Order) : Conversation → Option Outcome → Prop
  | started : Stage o [] none
  | priced (r : Paid (PaymentRequirements × PaymentChallenge)) (outcome : Outcome)
      (unpaid : ∀ result, outcome ≠ .ok (.ok result)) (header : o.paymentHeader = none) :
      Stage o [.replied (.issue o.cfg o.resource (inputDigest L o.input) o.nowUnix) r]
        (some outcome)
  | malformed (e : PaymentError) : Stage o [] (some (.error e))
  | turnedAway (memo : Text) (r : Paid PaymentChallenge) (e : PaymentError) :
      Stage o [.replied (.getValid memo o.nowUnix) r] (some (.error e))
  | found (p : Payment) (valid : p.Valid L) (order : p.order = o) :
      Stage o [.replied (.getValid p.challenge.memo o.nowUnix) (.ok p.challenge)] none
  | refused (p : Payment) (valid : p.Valid L) (order : p.order = o) (e : PaymentError) :
      Stage o (p.begun L (.error e)) (some (.error e))
  | cached (p : Payment) (valid : p.Valid L) (order : p.order = o) (result : PaidDemoResult) :
      Stage o (p.begun L (.ok (.cached result))) (some (.ok (.ok result)))
  | holding (p : Payment) (valid : p.Valid L) (order : p.order = o) (outcome : BeginOutcome)
      (lease : LeaseToken) (granted : outcome.granted = some lease) {events : Conversation}
      {out : Option Outcome} (held : Holding L p lease events out) :
      Stage o (p.begun L (.ok outcome) ++ events) out

end Stages

section Conversations

variable {L : Libraries} {o : Order} {p : Payment} {lease : LeaseToken} {e : PaymentError}
  {events : Conversation} {f : Flow Ask Ask.Reply Outcome} {out : Option Outcome}

theorem leads_giveUp (h : (Flow.ready (giveUp L p lease e)).Leads Ask.Remote events f) :
    events = [] ∧ f.outcome = none ∨
      ∃ u, events = [.replied (.fail (p.digestKey L) (p.binding L) lease) u] ∧
        f.outcome = some (.error e) := by
  rcases (Flow.leads_local id).mp h with ⟨rfl, rfl⟩ | ⟨u, rest, rfl, hdone⟩
  · exact .inl ⟨rfl, rfl⟩
  · obtain ⟨rfl, rfl⟩ := Flow.leads_done.mp hdone
    exact .inr ⟨u, rfl, rfl⟩

theorem leads_deliver {v : VerifyResponse} (valid : v.isValid = true) {s : SettleResponse}
    (success : s.success = true)
    (h : (Flow.ready (deliver L p lease s)).Leads Ask.Remote events f) :
    Holding L p lease (p.verified (.ok v) ++ p.settled (.ok s) ++ events) f.outcome := by
  unfold deliver at h
  split at h
  · rename_i e he
    obtain ⟨rfl, rfl⟩ := Flow.leads_done.mp h
    rw [List.append_nil]
    exact .unwritable v valid s success e he
  · rename_i header hheader
    have made : p.Result L s ⟨demoBody L p.order.input, header⟩ := ⟨success, rfl, hheader⟩
    rcases (Flow.leads_local id).mp h with ⟨rfl, rfl⟩ | ⟨u, rest, rfl, hdone⟩
    · rw [List.append_nil]
      exact .settled v valid s _ made
    · cases u with
      | error e =>
        obtain ⟨rfl, rfl⟩ := Flow.leads_done.mp hdone
        exact .completed v valid s _ made (.error e)
      | ok u =>
        obtain ⟨rfl, rfl⟩ := Flow.leads_done.mp hdone
        exact .completed v valid s _ made (.ok u)

theorem leads_settlePayment {v : VerifyResponse} (valid : v.isValid = true)
    (h : (Flow.ready (settlePayment L p lease)).Leads Ask.Remote events f) :
    Holding L p lease (p.verified (.ok v) ++ events) f.outcome := by
  rcases (Flow.leads_remote trivial).mp h with ⟨rfl, rfl⟩ | ⟨rfl, rfl⟩ | ⟨r, rest, rfl, hrest⟩
  · rw [List.append_nil]
    exact .verified v valid
  · exact .settling v valid
  · have hfailed : ∀ e, (∀ s, r = .ok s → s.success = false) →
        (Flow.ready (giveUp L p lease e)).Leads Ask.Remote rest f →
        Holding L p lease (p.verified (.ok v) ++ .sent (.settle p.request) ::
          .replied (.settle p.request) r :: rest) f.outcome := by
      intro e hr hgive
      rcases leads_giveUp hgive with ⟨rfl, hout⟩ | ⟨u, rfl, hout⟩
      · rw [hout]
        exact .unsettled v valid r hr
      · rw [hout]
        exact .unsettledFailed v valid r hr u e
    cases r with
    | error e => exact hfailed e (fun s hs => by cases hs) hrest
    | ok s =>
      dsimp only at hrest
      split at hrest
      · rename_i hs
        exact leads_deliver valid hs hrest
      · rename_i hs
        refine hfailed _ (fun s' hs' => ?_) hrest
        cases hs'
        exact Bool.eq_false_iff.mpr hs

theorem leads_verifyPayment
    (h : (Flow.ready (verifyPayment L p lease)).Leads Ask.Remote events f) :
    Holding L p lease events f.outcome := by
  rcases (Flow.leads_remote trivial).mp h with ⟨rfl, rfl⟩ | ⟨rfl, rfl⟩ | ⟨r, rest, rfl, hrest⟩
  · exact .leased
  · exact .verifying
  · have hinvalid : ∀ e, (∀ v, r = .ok v → v.isValid = false) →
        (Flow.ready (giveUp L p lease e)).Leads Ask.Remote rest f →
        Holding L p lease (.sent (.verify p.request) :: .replied (.verify p.request) r :: rest)
          f.outcome := by
      intro e hr hgive
      rcases leads_giveUp hgive with ⟨rfl, hout⟩ | ⟨u, rfl, hout⟩
      · rw [hout]
        exact .unverified r hr
      · rw [hout]
        exact .unverifiedFailed r hr u e
    cases r with
    | error e => exact hinvalid e (fun v hv => by cases hv) hrest
    | ok v =>
      dsimp only at hrest
      split at hrest
      · rename_i hv
        exact leads_settlePayment hv hrest
      · rename_i hv
        refine hinvalid _ (fun v' hv' => ?_) hrest
        cases hv'
        exact Bool.eq_false_iff.mpr hv

theorem leads_beginPayment (valid : p.Valid L) (order : p.order = o)
    (h : (Flow.ready (beginPayment L p)).Leads Ask.Remote events f) :
    Stage L o (.replied (.getValid p.challenge.memo o.nowUnix) (.ok p.challenge) :: events)
      f.outcome := by
  subst order
  rcases (Flow.leads_local id).mp h with ⟨rfl, rfl⟩ | ⟨r, rest, rfl, hrest⟩
  · exact .found p valid rfl
  · have hleased : ∀ outcome lease, r = .ok outcome → outcome.granted = some lease →
        (Flow.ready (verifyPayment L p lease)).Leads Ask.Remote rest f →
        Stage L p.order (p.begun L r ++ rest) f.outcome := by
      rintro outcome lease rfl hgranted hverify
      exact .holding p valid rfl outcome lease hgranted (leads_verifyPayment hverify)
    cases r with
    | error e =>
      obtain ⟨rfl, rfl⟩ := Flow.leads_done.mp hrest
      exact .refused p valid rfl e
    | ok outcome =>
      cases outcome with
      | cached result =>
        obtain ⟨rfl, rfl⟩ := Flow.leads_done.mp hrest
        exact .cached p valid rfl result
      | acquired lease => exact hleased _ lease rfl rfl hrest
      | recoveredStale lease => exact hleased _ lease rfl rfl hrest

theorem leads_requirePayment (header : o.paymentHeader = none)
    (h : (Flow.ready (requirePayment L o)).Leads Ask.Remote events f) :
    Stage L o events f.outcome := by
  rcases (Flow.leads_local id).mp h with ⟨rfl, rfl⟩ | ⟨r, rest, rfl, hrest⟩
  · exact .started
  · cases r with
    | error e =>
      obtain ⟨rfl, rfl⟩ := Flow.leads_done.mp hrest
      exact .priced _ _ (fun result hr => by cases hr) header
    | ok issued =>
      dsimp only at hrest
      split at hrest
      · obtain ⟨rfl, rfl⟩ := Flow.leads_done.mp hrest
        exact .priced _ _ (fun result hr => by cases hr) header
      · obtain ⟨rfl, rfl⟩ := Flow.leads_done.mp hrest
        exact .priced _ _ (fun result hr => by cases hr) header

/-- Wherever its events have led a request, it is at one of the stages. -/
theorem stage_of_leads (h : (Flow.ready (invokePaidDemo L o)).Leads Ask.Remote events f) :
    Stage L o events f.outcome := by
  unfold invokePaidDemo at h
  split at h
  · rename_i hheader
    exact leads_requirePayment hheader h
  rename_i header hheader
  split at h
  · obtain ⟨rfl, rfl⟩ := Flow.leads_done.mp h
    exact .malformed _
  rename_i payload hpayload
  split at h
  · obtain ⟨rfl, rfl⟩ := Flow.leads_done.mp h
    exact .malformed _
  rename_i memo hmemo
  rcases (Flow.leads_local id).mp h with ⟨rfl, rfl⟩ | ⟨r, rest, rfl, hrest⟩
  · exact .started
  cases r with
  | error e =>
    obtain ⟨rfl, rfl⟩ := Flow.leads_done.mp hrest
    exact .turnedAway memo _ e
  | ok challenge =>
    dsimp only at hrest
    split at hrest
    · obtain ⟨rfl, rfl⟩ := Flow.leads_done.mp hrest
      exact .turnedAway memo _ _
    · rename_i tx htx
      have hanswers := validatePaymentPayload_eq_ok.mp htx
      have hvalid : Payment.Valid L ⟨o, payload, challenge, tx⟩ :=
        ⟨⟨header, hheader, hpayload⟩, hanswers⟩
      have hchallenge : memo = challenge.memo := by
        have haccepted := congrArg (fun r => r.extra.memo) hanswers.accepted
        exact Option.some_inj.mp (hmemo.symm.trans haccepted)
      rw [hchallenge]
      exact leads_beginPayment hvalid rfl hrest

/-- The request has been given the lease of its payment. -/
structure Leased (L : Libraries) (o : Order) (events : Conversation) (p : Payment)
    (lease : LeaseToken) : Prop where
  valid : p.Valid L
  order : p.order = o
  found : .replied (.getValid p.challenge.memo o.nowUnix) (.ok p.challenge) ∈ events
  granted : ∃ outcome, outcome.granted = some lease ∧
    .replied (.begin (p.digestKey L) (p.binding L)) (.ok outcome) ∈ events

/-- The request has asked once for a lease, for the payment it has validated. -/
structure Asked (L : Libraries) (o : Order) (events : Conversation) (digest : Text)
    (binding : SettlementBinding) (r : Paid BeginOutcome) (p : Payment) : Prop where
  valid : p.Valid L
  order : p.order = o
  key : digest = p.digestKey L
  bound : binding = p.binding L
  found : .replied (.getValid p.challenge.memo o.nowUnix) (.ok p.challenge) ∈ events
  once : ∀ digest' binding' r', .replied (.begin digest' binding') r' ∈ events →
    digest' = digest ∧ binding' = binding ∧ r' = r

theorem Leased.of_last {x : Event Ask Ask.Reply} (h : Leased L o (events ++ [x]) p lease)
    (hx : ∀ memo now c digest binding r, x ≠ .replied (.getValid memo now) c ∧
      x ≠ .replied (.begin digest binding) r) : Leased L o events p lease where
  valid := h.valid
  order := h.order
  found := by
    rcases List.mem_append.mp h.found with hf | hf
    · exact hf
    · exact absurd (List.mem_singleton.mp hf).symm (hx _ _ _ [] (p.binding L) (.error .expired)).1
  granted := by
    obtain ⟨outcome, hl, hb⟩ := h.granted
    rcases List.mem_append.mp hb with hb | hb
    · exact ⟨outcome, hl, hb⟩
    · exact absurd (List.mem_singleton.mp hb).symm (hx [] 0 (.error .expired) _ _ _).2

variable {digest : Text} {binding : SettlementBinding} {result : PaidDemoResult} {u : Paid Unit}
  {r : Paid BeginOutcome} {l : LeaseToken} {q : VerifyRequest}

theorem Holding.of_asked (h : Holding L p lease events out)
    (hq : .sent (.verify q) ∈ events ∨ .sent (.settle q) ∈ events) : q = p.request := by
  cases h with
  | leased => simp at hq
  | _ => simpa [Payment.verified, Payment.settled] using hq

theorem Holding.of_complete (h : Holding L p lease events out)
    (hc : .replied (.complete digest binding l result) u ∈ events) :
    digest = p.digestKey L ∧ binding = p.binding L ∧ l = lease ∧
      ∃ s, .replied (.settle p.request) (.ok s) ∈ events ∧ p.Result L s result := by
  cases h with
  | completed v valid s result' made u' =>
    obtain ⟨⟨rfl, rfl, rfl, rfl⟩, -⟩ : (digest = p.digestKey L ∧ binding = p.binding L ∧ l = lease ∧
        result = result') ∧ u = u' := by simpa [Payment.verified, Payment.settled] using hc
    exact ⟨rfl, rfl, rfl, s, by simp [Payment.settled], made⟩
  | _ => simp [Payment.verified, Payment.settled] at hc

theorem Holding.of_fail (h : Holding L p lease events out)
    (hf : .replied (.fail digest binding l) u ∈ events) :
    digest = p.digestKey L ∧ binding = p.binding L ∧ l = lease ∧
      ∀ q s, .replied (.settle q) (.ok s) ∈ events → s.success = false := by
  cases h with
  | unverifiedFailed r invalid u' e =>
    obtain ⟨⟨rfl, rfl, rfl⟩, -⟩ : (digest = p.digestKey L ∧ binding = p.binding L ∧ l = lease) ∧
        u = u' := by simpa [Payment.verified] using hf
    exact ⟨rfl, rfl, rfl, fun q s hs => by simp [Payment.verified] at hs⟩
  | unsettledFailed v valid r failed u' e =>
    obtain ⟨⟨rfl, rfl, rfl⟩, -⟩ : (digest = p.digestKey L ∧ binding = p.binding L ∧ l = lease) ∧
        u = u' := by simpa [Payment.verified, Payment.settled] using hf
    refine ⟨rfl, rfl, rfl, fun q s hs => ?_⟩
    obtain ⟨rfl, hr⟩ : q = p.request ∧ HEq (Except.ok s : Paid SettleResponse) r := by
      simpa [Payment.verified, Payment.settled] using hs
    exact failed s (eq_of_heq hr).symm
  | _ => simp [Payment.verified, Payment.settled] at hf

theorem Holding.not_begin (h : Holding L p lease events out) :
    .replied (.begin digest binding) r ∉ events := by
  intro hb
  cases h with
  | _ => simp [Payment.verified, Payment.settled] at hb

theorem Holding.of_paid (h : Holding L p lease events (some (.ok (.ok result)))) :
    .replied (.complete (p.digestKey L) (p.binding L) lease result) (.ok ()) ∈ events := by
  generalize hout : some (Except.ok (Except.ok result) : Outcome) = out at h
  cases h with
  | completed v valid s result' made u =>
    cases u with
    | error e => cases hout
    | ok u =>
      cases hout
      simp
  | _ => cases hout

/-- A finished request has given its lease back or tried to store its result, unless the result of
a settled payment could not be written. -/
theorem Holding.of_finished {outcome : Outcome} (h : Holding L p lease events (some outcome)) :
    (∃ u, .replied (.fail (p.digestKey L) (p.binding L) lease) u ∈ events) ∨
      (∃ result,
        .replied (.complete (p.digestKey L) (p.binding L) lease result) (.ok ()) ∈ events) ∨
      (∃ s, .replied (.settle p.request) (.ok s) ∈ events ∧ s.success = true) ∧
        ∃ e, outcome = .error e := by
  generalize hout : some outcome = out at h
  cases h with
  | unverifiedFailed r invalid u e => exact .inl ⟨u, by simp⟩
  | unsettledFailed v valid r failed u e => exact .inl ⟨u, by simp⟩
  | unwritable v valid s success e header =>
    cases hout
    exact .inr (.inr ⟨⟨s, by simp [Payment.settled], success⟩, e, rfl⟩)
  | completed v valid s result made u =>
    cases u with
    | ok u => exact .inr (.inl ⟨result, by simp⟩)
    | error e =>
      cases hout
      exact .inr (.inr ⟨⟨s, by simp [Payment.settled], made.1⟩, e, rfl⟩)
  | _ => cases hout

theorem Stage.leased (p : Payment) (valid : p.Valid L) (order : p.order = o)
    {outcome : BeginOutcome} (granted : outcome.granted = some lease) :
    Leased L o (p.begun L (.ok outcome) ++ events) p lease where
  valid := valid
  order := order
  found := by simp [Payment.begun, order]
  granted := ⟨outcome, granted, by simp [Payment.begun]⟩

theorem Stage.of_asked (h : Stage L o events out)
    (hq : .sent (.verify q) ∈ events ∨ .sent (.settle q) ∈ events) :
    ∃ p lease, Leased L o events p lease ∧ q = p.request := by
  cases h with
  | holding p valid order outcome lease granted held =>
    exact ⟨p, lease, leased p valid order granted,
      held.of_asked (by simpa [Payment.begun] using hq)⟩
  | _ => simp [Payment.begun] at hq

theorem Stage.of_complete (h : Stage L o events out)
    (hc : .replied (.complete digest binding l result) u ∈ events) :
    ∃ p, Leased L o events p l ∧ digest = p.digestKey L ∧ binding = p.binding L ∧
      ∃ s, .replied (.settle p.request) (.ok s) ∈ events ∧ p.Result L s result := by
  cases h with
  | holding p valid order outcome lease granted held =>
    obtain ⟨rfl, rfl, rfl, s, hs, made⟩ := held.of_complete (by simpa [Payment.begun] using hc)
    exact ⟨p, leased p valid order granted, rfl, rfl, s, List.mem_append_right _ hs, made⟩
  | _ => simp [Payment.begun] at hc

theorem Stage.of_fail (h : Stage L o events out)
    (hf : .replied (.fail digest binding l) u ∈ events) :
    ∃ p, Leased L o events p l ∧ digest = p.digestKey L ∧ binding = p.binding L ∧
      ∀ q s, .replied (.settle q) (.ok s) ∈ events → s.success = false := by
  cases h with
  | holding p valid order outcome lease granted held =>
    obtain ⟨rfl, rfl, rfl, hs⟩ := held.of_fail (by simpa [Payment.begun] using hf)
    exact ⟨p, leased p valid order granted, rfl, rfl,
      fun q s hq => hs q s (by simpa [Payment.begun] using hq)⟩
  | _ => simp [Payment.begun] at hf

theorem Payment.asked (valid : p.Valid L) {r₀ : Paid BeginOutcome}
    (hrest : ∀ digest binding r, .replied (.begin digest binding) r ∉ events)
    (hb : .replied (.begin digest binding) r ∈ p.begun L r₀ ++ events) :
    Asked L p.order (p.begun L r₀ ++ events) digest binding r p := by
  have honly : ∀ digest binding r, .replied (.begin digest binding) r ∈ p.begun L r₀ ++ events →
      digest = p.digestKey L ∧ binding = p.binding L ∧ r = r₀ := by
    intro digest binding r hr
    obtain ⟨⟨rfl, rfl⟩, hr₀⟩ : (digest = p.digestKey L ∧ binding = p.binding L) ∧ r = r₀ := by
      simpa [Payment.begun, hrest] using hr
    exact ⟨rfl, rfl, hr₀⟩
  obtain ⟨rfl, rfl, rfl⟩ := honly digest binding r hb
  exact ⟨valid, rfl, rfl, rfl, by simp [Payment.begun], honly⟩

theorem Stage.of_begin (h : Stage L o events out)
    (hb : .replied (.begin digest binding) r ∈ events) :
    ∃ p, Asked L o events digest binding r p := by
  cases h with
  | refused p valid order e =>
    subst order
    refine ⟨p, ?_⟩
    rw [← List.append_nil (p.begun L _)] at hb ⊢
    exact p.asked valid (fun _ _ _ => List.not_mem_nil) hb
  | cached p valid order result =>
    subst order
    refine ⟨p, ?_⟩
    rw [← List.append_nil (p.begun L _)] at hb ⊢
    exact p.asked valid (fun _ _ _ => List.not_mem_nil) hb
  | holding p valid order outcome lease granted held =>
    subst order
    exact ⟨p, p.asked valid (fun _ _ _ => held.not_begin) hb⟩
  | _ => simp at hb

theorem Stage.of_finished {outcome : Outcome} (h : Stage L o events (some outcome))
    {granted : BeginOutcome} (hb : .replied (.begin digest binding) (.ok granted) ∈ events)
    (hl : granted.granted = some l) :
    (∃ u, .replied (.fail digest binding l) u ∈ events) ∨
      (∃ result, .replied (.complete digest binding l result) (.ok ()) ∈ events) ∨
      (∃ q s, .replied (.settle q) (.ok s) ∈ events ∧ s.success = true) ∧
        ∃ e, outcome = .error e := by
  obtain ⟨p', hasked⟩ := h.of_begin hb
  generalize hout : some outcome = out at h
  cases h with
  | refused p valid order e =>
    obtain ⟨-, -, hr⟩ :=
      hasked.once (p.digestKey L) (p.binding L) (.error e) (by simp [Payment.begun])
    cases hr
  | cached p valid order result =>
    obtain ⟨-, -, hr⟩ := hasked.once (p.digestKey L) (p.binding L) (.ok (.cached result))
      (by simp [Payment.begun])
    cases hr
    cases hl
  | holding p valid order granted' lease hgranted held =>
    obtain ⟨rfl, rfl, hr⟩ := hasked.once (p.digestKey L) (p.binding L) (.ok granted')
      (by simp [Payment.begun])
    cases hr
    cases hgranted.symm.trans hl
    subst hout
    rcases held.of_finished with ⟨u, hu⟩ | ⟨result, hresult⟩ | ⟨⟨s, hs, success⟩, he⟩
    · exact .inl ⟨u, List.mem_append_right _ hu⟩
    · exact .inr (.inl ⟨result, List.mem_append_right _ hresult⟩)
    · exact .inr (.inr ⟨⟨p.request, s, List.mem_append_right _ hs, success⟩, he⟩)
  | _ => simp at hb

theorem Stage.of_paid (h : Stage L o events (some (.ok (.ok result)))) :
    ∃ p : Payment, p.Valid L ∧ p.order = o ∧
      .replied (.getValid p.challenge.memo o.nowUnix) (.ok p.challenge) ∈ events ∧
      (.replied (.begin (p.digestKey L) (p.binding L)) (.ok (.cached result)) ∈ events ∨
        ∃ lease,
          .replied (.complete (p.digestKey L) (p.binding L) lease result) (.ok ()) ∈ events) := by
  generalize hout : some (Except.ok (Except.ok result) : Outcome) = out at h
  cases h with
  | cached p valid order result' =>
    cases hout
    subst order
    exact ⟨p, valid, rfl, by simp [Payment.begun], .inl (by simp [Payment.begun])⟩
  | priced r outcome unpaid header =>
    cases hout
    exact absurd rfl (unpaid result)
  | holding p valid order outcome lease granted held =>
    subst hout order
    exact ⟨p, valid, rfl, by simp [Payment.begun],
      .inr ⟨lease, List.mem_append_right _ held.of_paid⟩⟩
  | _ => cases hout

end Conversations

end AgentBond.Payments
