import AgentBond.Payments.Requests

/-! # Paid results are paid for

Every result a request returns was made after the facilitator had settled the
same transaction for the same service, input and challenge, and the challenge
was issued by the store. A store that forgets no settlement hands out one result
for a transaction.
-/

namespace AgentBond.Payments

open Foundation

variable {S : SettlementStore} {C : ChallengeStore} {L : Libraries} {H : S.Lawful} {J : C.Lawful}
  {tr : Trace S C} {w : World S C} {i j : ℕ} {o o' : Order} {e : Event Ask Ask.Reply}
  {k : Text} {b : SettlementBinding} {l : LeaseToken} {result result' : PaidDemoResult}

theorem stage_of_mem (h : Serves L tr w) (he : e ∈ Pool.eventsOf i tr) :
    ∃ o out, Stage L o (Pool.eventsOf i tr) out := by
  have hled := Pool.led_of_run (i := i) h
  cases hf : w.flow i with
  | none =>
    obtain ⟨-, hempty⟩ := hled.unstarted hf
    rw [hempty] at he
    cases he
  | some started => exact ⟨started.1, _, stage_of_run h hf⟩

/-- An event of a request cuts the trace at a transition that had its effect. -/
theorem Serves.cut (h : Serves L tr w) (he : e ∈ Pool.eventsOf i tr) :
    ∃ tr₁ x tr₂ d, tr = tr₁ ++ x :: tr₂ ∧ x.label = .event i e d ∧ Serves L tr₁ x.source ∧
      Effect x.source.shared e d x.target.shared := by
  obtain ⟨x, hx, d, hlabel⟩ := Pool.mem_eventsOf.mp he
  obtain ⟨tr₁, tr₂, rfl⟩ := List.append_of_mem hx
  exact ⟨tr₁, x, tr₂, d, rfl, hlabel, h.split.1, (stage_of_event h hlabel).1⟩

theorem issued_of_found (h : Serves L tr w) (H : S.Lawful) (J : C.Lawful) {memo : Text}
    {now : Int64} {c : PaymentChallenge}
    (hc : .replied (.getValid memo now) (.ok c) ∈ Pool.eventsOf i tr) :
    Issued c tr ∧ c.memo = memo ∧ now ≤ c.expiresAt := by
  obtain ⟨tr₁, x, tr₂, d, rfl, -, h₁, heffect⟩ := h.cut hc
  obtain ⟨hfound, hle⟩ := heffect.found J
  obtain ⟨hmemo, hissued⟩ := (recorded_of_run h₁ H J).issued memo c hfound
  exact ⟨hissued.append, hmemo, hle⟩

/-- The payment answered a challenge that was issued, the facilitator has settled it, and the result
was made of its answer. -/
structure PaidFor (L : Libraries) (p : Payment) (result : PaidDemoResult) (tr : Trace S C) :
    Prop where
  valid : p.Valid L
  issued : Issued p.challenge tr
  settled : ∃ s, Pool.Happened (.replied (.settle p.request) (.ok s)) tr ∧ p.Result L s result

theorem PaidFor.append {p : Payment} {tr' : Trace S C} (h : PaidFor L p result tr) :
    PaidFor L p result (tr ++ tr') := by
  obtain ⟨hvalid, hissued, s, hs, hresult⟩ := h
  exact ⟨hvalid, hissued.append, s, hs.append, hresult⟩

/-- What is stored is paid for. -/
theorem stored_paid_for (h : Serves L tr w) (H : S.Lawful) (J : C.Lawful) {u : Paid Unit}
    (hc : Pool.Happened (.replied (.complete k b l result) u) tr) :
    ∃ p : Payment, PaidFor L p result tr ∧ k = p.digestKey L ∧ b = p.binding L := by
  obtain ⟨i, hi⟩ := hc
  obtain ⟨o, out, hstage⟩ := stage_of_mem h hi
  obtain ⟨p, hleased, hk, hb, s, hs, hresult⟩ := hstage.of_complete hi
  have hissued := (issued_of_found h H J hleased.found).1
  exact ⟨p, ⟨hleased.valid, hissued, s, ⟨i, hs⟩, hresult⟩, hk, hb⟩

theorem stored_of_cached (h : Serves L tr w) (H : S.Lawful) (J : C.Lawful)
    (hb : .replied (.begin k b) (.ok (.cached result)) ∈ Pool.eventsOf i tr) :
    ∃ l, Pool.Happened (.replied (.complete k b l result) (.ok ())) tr := by
  obtain ⟨tr₁, x, tr₂, d, rfl, -, h₁, heffect⟩ := h.cut hb
  obtain ⟨l, hstored⟩ := (recorded_of_run h₁ H J).stored k b result (H.cached heffect.begin)
  exact ⟨l, hstored.append⟩

/-- A paid result that is returned has been stored under the payment's transaction and binding. -/
theorem stored_of_paid (h : Serves L tr w) (H : S.Lawful) (J : C.Lawful)
    (hpaid : w.returned i o (.ok (.ok result))) :
    ∃ p : Payment, p.Valid L ∧ p.order = o ∧ Issued p.challenge tr ∧
      ∃ l, Pool.Happened
        (.replied (.complete (p.digestKey L) (p.binding L) l result) (.ok ())) tr := by
  obtain ⟨f, hf, hout⟩ := hpaid
  have hstage := stage_of_run h hf
  rw [hout] at hstage
  obtain ⟨p, hvalid, rfl, hfound, hstored⟩ := hstage.of_paid
  refine ⟨p, hvalid, rfl, (issued_of_found h H J hfound).1, ?_⟩
  rcases hstored with hcached | ⟨l, hcomplete⟩
  · exact stored_of_cached h H J hcached
  · exact ⟨l, i, hcomplete⟩

/-- Whatever the stores and the facilitator answer and however the requests interleave: a request
that returns a paid result has shown a valid payment for a challenge the store has issued, and the
facilitator has settled a payment of the same transaction, for the same service, resource, input and
challenge, of whose answer the result was made. -/
theorem paid_results_paid_for (h : Serves L tr w) (H : S.Lawful) (J : C.Lawful)
    (hpaid : w.returned i o (.ok (.ok result))) :
    ∃ p p' : Payment, p.Valid L ∧ p.order = o ∧ Issued p.challenge tr ∧ PaidFor L p' result tr ∧
      p'.digestKey L = p.digestKey L ∧ p'.binding L = p.binding L := by
  obtain ⟨p, hvalid, horder, hissued, l, hstored⟩ := stored_of_paid h H J hpaid
  obtain ⟨p', hpaidfor, hk, hb⟩ := stored_paid_for h H J hstored
  exact ⟨p, p', hvalid, horder, hissued, hpaidfor, hk.symm, hb.symm⟩

namespace Sample

def cfg : X402ResourceConfig where
  network := ['n']
  asset := List.replicate 32 'a'
  payTo := List.replicate 32 'p'
  feePayer := List.replicate 32 'f'
  amount := ['1']
  maxTimeoutSeconds := 60
  resourceUrl := ['u']
  description := []
  serviceId := ['s']

/-- The payment that answers the challenge for sixteen zero bytes. -/
def payload : PaymentPayload where
  x402Version := x402Version
  resource := ⟨cfg.resourceUrl, cfg.description, applicationJson⟩
  accepted := newRequirements cfg (List.replicate 32 '0')
  payload := ⟨"AA==".toList⟩
  extensions := []

def libraries : Libraries where
  sha256 := fun _ => List.Vector.replicate 32 170
  readPayload := fun bytes => if bytes = [0] then some payload else none

def unpaid : Order := ⟨cfg, none, .null, 0⟩

def paid : Order := ⟨cfg, some "AA==".toList, .null, 1⟩

def draw (now lease : ℕ) : Draw := ⟨now, some (List.Vector.replicate 16 0), ⟨lease⟩⟩

def settledBy : SettleResponse := ⟨true, none, none, none, none⟩

/-- The request goes on, and the facilitator approves of everything. -/
def go (i now : ℕ) : Move :=
  .go i (draw now now) (.ok { isValid := true, invalidReason := none, payer := none })
    (.ok settledBy)

/-- A request is told what to pay. -/
def priced : List Move := [.start 1 unpaid, go 1 0]

/-- One with the payment is verified, settled and stored. -/
def paying : List Move :=
  priced ++ [.start 2 paid, go 2 1, go 2 2, go 2 3, go 2 4, go 2 5, go 2 6, go 2 7]

/-- The response header holds `success` and nothing else. -/
def paidResult : PaidDemoResult := ⟨demoBody libraries .null, "eyJzdWNjZXNzIjp0cnVlfQ==".toList⟩

/-- What the payment is for. -/
def paidBinding : SettlementBinding where
  serviceId := cfg.serviceId
  resourceUrl := cfg.resourceUrl
  inputDigest := inputDigest libraries .null
  challengeMemo := List.replicate 32 '0'

def start : World pgStore pgChallenges := World.init _ _

-- The kernel plays the moves, which takes more than the default depth.
set_option maxRecDepth 100000 in
theorem paid_results_paid_for_paying :
    (start.after libraries paying).returned 2 paid (.ok (.ok paidResult)) ∧
      ∃ p p' : Payment, p.Valid libraries ∧ p.order = paid ∧
        Issued p.challenge (start.play libraries paying) ∧
        PaidFor libraries p' paidResult (start.play libraries paying) ∧
        p'.digestKey libraries = p.digestKey libraries ∧
        p'.binding libraries = p.binding libraries := by
  have hpaid : (start.after libraries paying).returned 2 paid (.ok (.ok paidResult)) :=
    ⟨_, rfl, rfl⟩
  exact ⟨hpaid,
    paid_results_paid_for (start.run_play paying) Pg.lawful PgChallengeStore.lawful hpaid⟩

end Sample

/-- A store that forgets no settlement. -/
def SettlementStore.Lawful.Permanent (H : S.Lawful) : Prop :=
  ∀ {s s' : StoreState S.Row} {c : Call} {k b result}, S.Step s c s' →
    H.cellAt s.rows k = some (.settled b result) → H.cellAt s'.rows k = some (.settled b result)

/-- The database forgets no settlement. -/
theorem Pg.permanent : Pg.lawful.Permanent := by
  intro s s' c k b result hs hcell
  obtain ⟨-, -, hcall⟩ := hs
  cases c with
  | begin now lease digest binding r =>
    obtain ⟨hother, ⟨a, -, -, -, hbegin, hsame⟩ | ⟨-, hrows, -⟩⟩ := Pg.begin_cell hcall
    · by_cases hd : k = digest
      · subst hd
        change Pg.cellAt s.rows k = _ at hcell
        rw [hcell] at hbegin
        obtain ⟨heq, hne⟩ := (Cell.begun hbegin).of_settled
        have hungranted : a.granted = none := by
          by_cases hb : binding = b
          · rw [heq hb]
            rfl
          · rw [hne hb]
            rfl
        rw [hsame hungranted]
        exact hcell
      · exact (Pg.cellAt_congr (hother k hd)).trans hcell
    · rw [hrows]
      exact hcell
  | complete now digest binding lease res u =>
    obtain ⟨hother, hself⟩ := Pg.lawful.complete hcall
    by_cases hd : k = digest
    · subst hd
      rcases hself with hcomplete | ⟨hsame, -⟩
      · rw [hcell] at hcomplete
        exact (congrArg Prod.fst hcomplete).symm
      · exact hsame.trans hcell
    · exact (hother k hd).trans hcell
  | fail now digest binding lease u =>
    obtain ⟨hother, ok, hfail⟩ := Pg.lawful.fail hcall
    by_cases hd : k = digest
    · subst hd
      rw [hcell] at hfail
      exact (congrArg Prod.fst hfail).symm
    · exact (hother k hd).trans hcell

theorem settled_of_stored (hp : H.Permanent) (h : Serves L tr w)
    (hc : Pool.Happened (.replied (.complete k b l result) (.ok ())) tr) :
    H.cellAt w.shared.settlements.rows k = some (.settled b result) := by
  refine Pool.traced (I := fun tr s => ∀ {k b l result},
    Pool.Happened (.replied (.complete k b l result) (.ok ())) tr →
      H.cellAt s.settlements.rows k = some (.settled b result)) h ?_ ?_ ?_ hc
  · rintro k b l result ⟨i, hi⟩
    cases hi
  · intro tr x hI hquiet hs k b l result hc
    have hcell : H.cellAt x.target.shared.settlements.rows k =
        H.cellAt x.source.shared.settlements.rows k := by
      rcases hs with hs | ⟨-, hperm, -⟩
      · rw [hs]
      · exact H.reorder hperm k
    rcases Pool.happened_snoc hc with hold | ⟨i, d, hlabel⟩
    · rw [hcell, hI hold]
    · exact absurd hlabel (hquiet _ _ _)
  · intro tr x i e d hI hlabel he k b l result hc
    rcases Pool.happened_snoc hc with hold | ⟨j, d', hlast⟩
    · obtain ⟨-, -, hsame | ⟨ask, r, call, -, -, hstep⟩⟩ := Effect.settlements he
      · rw [hsame, hI hold]
      · exact hp hstep (hI hold)
    · cases hlabel.symm.trans hlast
      exact Effect.complete he

/-- The transaction the request pays with. -/
def Order.PaysWith (L : Libraries) (o : Order) (k : Text) : Prop :=
  ∃ header payload, o.paymentHeader = some header ∧
    decodePaymentSignatureHeader L header = .ok payload ∧
    k = txDigest L payload.payload.transaction.trim

theorem Payment.Valid.paysWith {p : Payment} (h : p.Valid L) (hk : p.order.PaysWith L k) :
    k = p.digestKey L := by
  obtain ⟨header, hheader, hpayload⟩ := h.header
  obtain ⟨header', payload', hheader', hpayload', rfl⟩ := hk
  cases hheader.symm.trans hheader'
  cases hpayload.symm.trans hpayload'
  rw [Payment.digestKey, h.answers.trimmed]

/-- The database hands out one result for a transaction: two requests that are both paid with it
return the same result, for the same service, resource and input. -/
theorem one_result_per_transaction {tr : Trace pgStore C} {w : World pgStore C}
    (h : Serves L tr w) (J : C.Lawful) (hpaid : w.returned i o (.ok (.ok result)))
    (hpaid' : w.returned j o' (.ok (.ok result'))) (hk : o.PaysWith L k) (hk' : o'.PaysWith L k) :
    result = result' ∧ o.cfg.serviceId = o'.cfg.serviceId ∧
      o.cfg.resourceUrl = o'.cfg.resourceUrl ∧
      inputDigest L o.input = inputDigest L o'.input := by
  obtain ⟨p, hvalid, rfl, -, l, hstored⟩ := stored_of_paid h Pg.lawful J hpaid
  obtain ⟨p', hvalid', rfl, -, l', hstored'⟩ := stored_of_paid h Pg.lawful J hpaid'
  rw [← hvalid.paysWith hk] at hstored
  rw [← hvalid'.paysWith hk'] at hstored'
  have hcell := settled_of_stored Pg.permanent h hstored
  rw [settled_of_stored Pg.permanent h hstored'] at hcell
  obtain ⟨hb, hresult⟩ := Cell.settled.inj (Option.some_inj.mp hcell)
  simp only [Payment.binding, SettlementBinding.mk.injEq] at hb
  exact ⟨hresult.symm, hb.1.symm, hb.2.1.symm, hb.2.2.1.symm⟩

namespace Sample

/-- Another request comes later with the same payment, in a header that is padded. -/
def paidLater : Order := ⟨cfg, some " AA== ".toList, .null, 5⟩

def again : List Move := paying ++ [.start 3 paidLater, go 3 8, go 3 9]

set_option maxRecDepth 100000 in
theorem one_result_per_transaction_again : paid ≠ paidLater ∧
    ∃ result result', (start.after libraries again).returned 2 paid (.ok (.ok result)) ∧
      (start.after libraries again).returned 3 paidLater (.ok (.ok result')) ∧
      result = result' ∧
        inputDigest libraries paid.input = inputDigest libraries paidLater.input := by
  have hpaid : (start.after libraries again).returned 2 paid (.ok (.ok paidResult)) := ⟨_, rfl, rfl⟩
  have hlater : (start.after libraries again).returned 3 paidLater (.ok (.ok paidResult)) :=
    ⟨_, rfl, rfl⟩
  have hpays : paid.PaysWith libraries digest := ⟨_, payload, rfl, rfl, rfl⟩
  have hpaysLater : paidLater.PaysWith libraries digest := ⟨_, payload, rfl, rfl, rfl⟩
  have hone := one_result_per_transaction (start.run_play again) PgChallengeStore.lawful hpaid
    hlater hpays hpaysLater
  refine ⟨fun he => ?_, paidResult, paidResult, hpaid, hlater, hone.1, hone.2.2.2⟩
  cases congrArg Order.nowUnix he

end Sample

end AgentBond.Payments
