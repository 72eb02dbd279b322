import AgentBond.Payments.PaidResults

/-! # Paying as one was told

A challenge the database has issued stays in it, whatever the other requests do,
as long as none comes later than the challenge runs. A request that pays what a
challenge asks for is never turned away: it gets through to the settlement store
with its transaction.
-/

namespace AgentBond.Payments

open Foundation

section Kept

open PgChallengeStore

variable {rows rows' : Rows} {k memo : Text} {row : ChallengeRow} {now issuedAt : Int64}
  {limit : ℕ} {bytes : Option (Bytes 16)} {cfg : X402ResourceConfig} {resource : ResourceInfo}
  {inputDigest : Text} {q : PaymentRequirements} {c : PaymentChallenge}

theorem PgChallengeStore.get_purgeExpired (h : rows.get k = some row) (hle : now ≤ row.expiresAt) :
    (purgeExpired now limit rows).get k = some row := by
  rw [purgeExpired, Table.get_deleteWhere, h, Option.filter_some]
  refine if_pos ?_
  rw [Bool.not_eq_true', ← Bool.not_eq_true, List.contains_iff_mem, List.mem_map]
  rintro ⟨e, he, rfl⟩
  obtain ⟨hget, hexpired⟩ := Table.mem_selectWhere.mp (List.mem_of_mem_take he)
  cases h.symm.trans hget
  exact absurd (of_decide_eq_true hexpired) (Int64.not_lt.mpr hle)

theorem PgChallengeStore.issue_kept {r : Paid (PaymentRequirements × PaymentChallenge)}
    (h : issue bytes cfg resource inputDigest issuedAt rows = (rows', r))
    (hrow : rows.get k = some row) (hle : issuedAt ≤ row.expiresAt) : rows'.get k = some row := by
  rcases issue_cases h with ⟨rfl, -⟩ | ⟨memo, expiresAt, -, -, hfree, rfl, -⟩
  · exact hrow
  · refine get_purgeExpired ?_ hle
    have hne : k ≠ memo := by
      rintro rfl
      cases hrow.symm.trans hfree
    rw [Table.get_put_of_ne hne, hrow]

theorem PgChallengeStore.getValid_kept {r : Paid PaymentChallenge}
    (h : getValid memo now rows = (rows', r)) (hrow : rows.get k = some row)
    (hle : now ≤ row.expiresAt) :
    rows'.get k = some row ∧ (k = memo → Json.nul memo = false → r = .ok row.challenge) := by
  unfold getValid at h
  split at h
  · rename_i hnul
    cases h
    exact ⟨hrow, fun _ hno => by cases hnul.symm.trans hno⟩
  split at h
  · rename_i hnone
    cases h
    refine ⟨hrow, ?_⟩
    rintro rfl
    cases hrow.symm.trans hnone
  rename_i row' hget
  split at h
  · rename_i hlt
    cases h
    have hne : k ≠ memo := by
      rintro rfl
      cases hrow.symm.trans hget
      exact absurd hlt (Int64.not_lt.mpr hle)
    refine ⟨?_, fun hk => absurd hk hne⟩
    rw [Table.get_deleteWhere, hrow, Option.filter_some]
    exact if_pos (by simp [hne])
  · cases h
    refine ⟨hrow, ?_⟩
    rintro rfl -
    cases hrow.symm.trans hget
    rfl

theorem nul_of_lowerHex {n : ℕ} {text : Text} (h : Pg.lowerHex n text = true) :
    Json.nul text = false := by
  obtain ⟨-, hall⟩ := Bool.and_eq_true_iff.mp h
  rw [Json.nul, List.any_eq_false]
  intro c hc hnul
  have hdigit := List.all_eq_true.mp hall c hc
  have hzero : c = Char.ofNat 0 := Char.ext (UInt32.toNat_inj.mp (of_decide_eq_true hnul))
  subst hzero
  cases hdigit

theorem utf8Len_of_lowerHex {n : ℕ} {text : Text} (h : Pg.lowerHex n text = true) :
    n ≤ text.utf8Len := by
  have hlen : text.length = n := of_decide_eq_true (Bool.and_eq_true_iff.mp h).1
  exact hlen ▸ Text.length_le_utf8Len text

theorem PgChallengeStore.issue_row
    (h : issue bytes cfg resource inputDigest issuedAt rows = (rows', .ok (q, c))) :
    rows'.get c.memo = some (newRow c) ∧ Pg.lowerHex 32 c.memo = true := by
  rcases issue_cases h with ⟨-, e, he⟩ | ⟨memo, expiresAt, hexpires, hchecked, -, rfl, hr⟩
  · cases he
  cases hr
  simp only [checkRow, Bool.and_eq_true, decide_eq_true_eq] at hchecked
  have hmemo := hchecked.1.1.1.1.1.1.1.1.1.1.1.1
  have htimeout : 0 < cfg.maxTimeoutSeconds.toInt64 := hchecked.2.1
  exact ⟨get_purgeExpired Table.get_put_self
    (toInt_le_of_checkedAddI64 hexpires (Int64.le_of_lt htimeout)), hmemo⟩

end Kept

/-- The time a call on the challenge store is made for. -/
def Ask.asOf : Ask → Option Int64
  | .issue _ _ _ issuedAt => some issuedAt
  | .getValid _ now => some now
  | _ => none

/-- The time a request is made for. -/
def madeAt : Act ℕ Draw Order Ask Ask.Reply → Option Int64
  | .start _ o => some o.nowUnix
  | _ => none

section Runs

variable {S : SettlementStore} {L : Libraries} {H : S.Lawful} {tr tr₁ tr₂ : Trace S pgChallenges}
  {w : World S pgChallenges}
  {x : Transition (World S pgChallenges) (Act ℕ Draw Order Ask Ask.Reply)}
  {i j : ℕ} {o : Order} {p : Payment} {lease : LeaseToken} {events : Conversation}
  {out : Option Outcome} {ask : Ask} {r : ask.Reply} {d : Draw} {t : Int64}
  {s s' : Shared S pgChallenges} {k : Text} {row : PgChallengeStore.ChallengeRow}
  {cfg : X402ResourceConfig} {resource : ResourceInfo} {digest : Text}
  {q : PaymentRequirements} {c : PaymentChallenge}

theorem Holding.asOf (h : Holding L p lease events out) (hr : .replied ask r ∈ events) :
    ask.asOf = none := by
  cases ask with
  | issue | getValid =>
    cases h with
    | _ => simp [Payment.verified, Payment.settled] at hr
  | _ => rfl

theorem Stage.asOf (h : Stage L o events out) (hr : .replied ask r ∈ events)
    (ht : ask.asOf = some t) : t = o.nowUnix := by
  have hask : ask.asOf = none ∨ ask.asOf = some o.nowUnix := by
    cases h with
    | started | malformed => cases hr
    | priced | turnedAway | found =>
      cases List.mem_singleton.mp hr
      exact .inr rfl
    | refused p valid order | cached p valid order =>
      subst order
      rcases List.mem_cons.mp hr with hr | hr
      · cases hr
        exact .inr rfl
      · cases List.mem_singleton.mp hr
        exact .inl rfl
    | holding p valid order outcome lease granted held =>
      subst order
      rcases List.mem_append.mp hr with hr | hr
      · rcases List.mem_cons.mp hr with hr | hr
        · cases hr
          exact .inr rfl
        · cases List.mem_singleton.mp hr
          exact .inl rfl
      · exact .inl (held.asOf hr)
  rcases hask with hnone | hsome
  · cases ht.symm.trans hnone
  · exact Option.some_inj.mp (ht.symm.trans hsome)

/-- No request is made for a later time. -/
def Timely (t : Int64) (tr : Trace S pgChallenges) : Prop :=
  ∀ y ∈ tr, ∀ now ∈ madeAt y.label, now ≤ t

theorem asOf_le (h : Serves L (tr₁ ++ x :: tr₂) w) (htime : Timely t (tr₁ ++ x :: tr₂))
    (hx : x.label = .event i (.replied ask r) d) {now : Int64} (hnow : ask.asOf = some now) :
    now ≤ t := by
  obtain ⟨o, f, f', hf, hmoves, -, hled⟩ := Pool.flow_of_event h rfl hx
  obtain ⟨y, hy, hlabel⟩ := Pool.started_of_run h.split.1 rfl hf
  rw [(stage_of_leads (hled.snoc hmoves)).asOf (List.mem_append_right _ List.mem_cons_self) hnow]
  exact htime y (List.mem_append_left _ hy) _ (congrArg madeAt hlabel)

theorem Effect.challenge_kept {e : Event Ask Ask.Reply} (h : Effect s e d s')
    (hrow : s.challenges.get k = some row)
    (htime : ∀ ask r now, e = .replied ask r → ask.asOf = some now → now ≤ row.expiresAt) :
    s'.challenges.get k = some row := by
  cases h with
  | issue clock issued =>
    exact PgChallengeStore.issue_kept issued hrow (htime _ _ _ rfl rfl)
  | getValid clock found =>
    exact (PgChallengeStore.getValid_kept found hrow (htime _ _ _ rfl rfl)).1
  | settlement | sent | answered => exact hrow

theorem Effect.issue_row
    (h : Effect s (.replied (.issue cfg resource digest t) (.ok (q, c))) d s') :
    (∃ memo expiresAt, q = newRequirements cfg memo ∧
        c = newChallenge cfg resource digest memo t expiresAt) ∧
      s'.challenges.get c.memo = some (PgChallengeStore.newRow c) ∧
      Pg.lowerHex 32 c.memo = true := by
  cases h with
  | issue clock issued =>
    exact ⟨(PgChallengeStore.issue_found issued).2 q c rfl, PgChallengeStore.issue_row issued⟩
  | settlement called => cases called
  | answered far => exact absurd far id

theorem Effect.getValid_row {now : Int64} {r : Paid PaymentChallenge}
    (h : Effect s (.replied (.getValid k now) r) d s') (hrow : s.challenges.get k = some row)
    (hle : now ≤ row.expiresAt) (hnul : Json.nul k = false) : r = .ok row.challenge := by
  cases h with
  | getValid clock found => exact (PgChallengeStore.getValid_kept found hrow hle).2 rfl hnul
  | settlement called => cases called
  | answered far => exact absurd far id

theorem kept_of_issued (h : Serves L (tr₁ ++ x :: tr₂) w)
    (hx : x.label = .event j (.replied (.issue cfg resource digest t) (.ok (q, c))) d)
    (htime : Timely c.expiresAt (tr₁ ++ x :: tr₂)) :
    w.shared.challenges.get c.memo = some (PgChallengeStore.newRow c) := by
  induction tr₂ using List.reverseRecOn generalizing w with
  | nil =>
    obtain rfl : x.target = w := h.split.2.2
    exact (stage_of_event h hx).1.issue_row.2.1
  | append_singleton tr₂ y ih =>
    have hsplit : tr₁ ++ x :: (tr₂ ++ [y]) = (tr₁ ++ x :: tr₂) ++ y :: [] := by simp
    rw [hsplit] at h htime
    obtain ⟨h₁, hstep, rfl⟩ := h.split
    have hrow := ih h₁ fun z hz => htime z (List.mem_append_left _ hz)
    by_cases hlabel : ∃ i e d, y.label = .event i e d
    · obtain ⟨i, e, d, hlabel⟩ := hlabel
      refine (stage_of_event h hlabel).1.challenge_kept hrow ?_
      rintro ask r now rfl hnow
      exact asOf_le h htime hlabel hnow
    · rcases hstep.quiet fun i e d hl => hlabel ⟨i, e, d, hl⟩ with hsame | hdrift
      · rw [hsame]
        exact hrow
      · exact (Table.get_of_perm hdrift.1 _).trans hrow

/-- A request that is made after the challenge was issued finds it. -/
theorem found_of_issued (h : Serves L (tr₁ ++ x :: tr₂) w)
    (hx : x.label = .event j (.replied (.issue cfg resource digest t) (.ok (q, c))) d)
    (htime : Timely c.expiresAt (tr₁ ++ x :: tr₂)) (hnew : x.target.flow i = none) {now : Int64}
    {r : Paid PaymentChallenge}
    (hr : .replied (.getValid c.memo now) r ∈ Pool.eventsOf i (tr₁ ++ x :: tr₂)) : r = .ok c := by
  have hissued : Serves L (tr₁ ++ [x]) x.target :=
    Run.append_iff.mpr ⟨x.source, h.split.1, rfl, h.split.2.1, rfl⟩
  have hbefore := ((Pool.led_of_run (i := i) hissued).unstarted hnew).2
  rw [List.append_cons, Pool.eventsOf_append, hbefore, List.nil_append] at hr
  obtain ⟨y, hy, d', hlabel⟩ := Pool.mem_eventsOf.mp hr
  obtain ⟨tr₂, tr₃, rfl⟩ := List.append_of_mem hy
  have hsplit : tr₁ ++ x :: (tr₂ ++ y :: tr₃) = (tr₁ ++ x :: tr₂) ++ y :: tr₃ := by simp
  rw [hsplit] at h htime
  have hrow := kept_of_issued h.split.1 hx fun z hz => htime z (List.mem_append_left _ hz)
  have hnul := nul_of_lowerHex (stage_of_event h.split.1 hx).1.issue_row.2.2
  have hr := (stage_of_event h hlabel).1.getValid_row hrow (asOf_le h htime hlabel rfl) hnul
  rw [hr, PgChallengeStore.challenge_newRow]

theorem Stage.of_issue {r : Paid (PaymentRequirements × PaymentChallenge)}
    (h : Stage L o events out)
    (hr : .replied (.issue cfg resource digest t) r ∈ events) :
    o.paymentHeader = none ∧ cfg = o.cfg ∧ resource = o.resource ∧
      digest = inputDigest L o.input := by
  cases h with
  | priced r outcome unpaid header =>
    cases List.mem_singleton.mp hr
    exact ⟨header, rfl, rfl, rfl⟩
  | holding p valid order outcome lease granted held =>
    rcases List.mem_append.mp hr with hr | hr
    · simp [Payment.begun] at hr
    · cases held.asOf hr
  | _ => simp [Payment.begun] at hr

/-- The order pays what it was told to pay: its payment names the resource and the requirements, and
carries a transaction of a size the chain takes. -/
def Order.Pays (L : Libraries) (o : Order) (resource : ResourceInfo) (q : PaymentRequirements)
    (tx : Text) : Prop :=
  ∃ header transaction bytes, o.paymentHeader = some header ∧
    decodePaymentSignatureHeader L header = .ok ⟨x402Version, resource, q, ⟨transaction⟩, []⟩ ∧
    tx = transaction.trim ∧ Base64.decode tx = some bytes ∧ bytes ≠ [] ∧
    bytes.length ≤ maxSolanaTxBytes

theorem leads_of_answers {f : Flow Ask Ask.Reply Outcome} {header : Text} {payload : PaymentPayload}
    {tx : Text} (hheader : o.paymentHeader = some header)
    (hpayload : decodePaymentSignatureHeader L header = .ok payload)
    (hanswers : Answers payload c o.nowUnix (inputDigest L o.input) tx)
    (h : (Flow.ready (invokePaidDemo L o)).Leads Ask.Remote events f) :
    f.outcome = none ∨ ∃ r rest, events = .replied (.getValid c.memo o.nowUnix) r :: rest ∧
      (r = .ok c → (Flow.ready (beginPayment L ⟨o, payload, c, tx⟩)).Leads Ask.Remote rest f) := by
  have hmemo : payload.accepted.extra.memo = some c.memo := by rw [hanswers.accepted]; rfl
  simp only [invokePaidDemo, hheader, hpayload, hmemo] at h
  rcases (Flow.leads_local id).mp h with ⟨rfl, rfl⟩ | ⟨r, rest, rfl, hrest⟩
  · exact .inl rfl
  · refine .inr ⟨r, rest, rfl, ?_⟩
    rintro rfl
    simp only [validatePaymentPayload_eq_ok.mpr hanswers] at hrest
    exact hrest

/-- Whatever requests go on beside it: if none is made for a later time than a challenge runs until,
a request that is made after the challenge was issued, and pays with it for the same input, is not
turned away before it has asked the settlement store for the lease of its transaction. -/
theorem payer_let_through (h : Serves L (tr₁ ++ x :: tr₂) w)
    (hx : x.label = .event j (.replied (.issue cfg resource digest t) (.ok (q, c))) d)
    (htime : Timely c.expiresAt (tr₁ ++ x :: tr₂)) (hnew : x.target.flow i = none) {tx : Text}
    (hpays : o.Pays L resource q tx) (hinput : inputDigest L o.input = digest) {outcome : Outcome}
    (hret : w.returned i o outcome) :
    ∃ r, .replied (.begin (txDigest L tx) ⟨o.cfg.serviceId, o.cfg.resourceUrl, digest, c.memo⟩) r ∈
      Pool.eventsOf i (tr₁ ++ x :: tr₂) := by
  obtain ⟨f, hf, hout⟩ := hret
  obtain ⟨heffect, o₁, out₁, hstage⟩ := stage_of_event h hx
  obtain ⟨-, rfl, rfl, hdigest⟩ := hstage.of_issue (List.mem_append_right _ List.mem_cons_self)
  obtain ⟨header, transaction, bytes, hheader, hpayload, htx, hdecode, hne, hlen⟩ := hpays
  obtain ⟨⟨memo, expiresAt, rfl, rfl⟩, -, hhex⟩ := heffect.issue_row
  have hanswers : Answers ⟨x402Version, o₁.resource, newRequirements o₁.cfg memo, ⟨transaction⟩, []⟩
      (newChallenge o₁.cfg o₁.resource digest memo t expiresAt) o.nowUnix
      (inputDigest L o.input) tx :=
    { version := rfl
      extensions := rfl
      resource := rfl
      accepted := rfl
      memo := utf8Len_of_lowerHex hhex
      blockhash := fun bh hbh => by cases hbh
      height := fun hh => by cases hh
      unexpired := by
        obtain ⟨y, hy, hlabel⟩ := Pool.started_of_run h rfl hf
        exact htime y hy _ (congrArg madeAt hlabel)
      input := hinput.symm
      trimmed := htx
      transaction := ⟨bytes, hdecode, hne, hlen⟩ }
  rcases leads_of_answers hheader hpayload hanswers ((Pool.led_of_run h).started o f hf rfl) with
    hnone | ⟨r, rest, hevents, hrest⟩
  · cases hnone.symm.trans hout
  have hfound := found_of_issued h hx htime hnew (hevents ▸ List.mem_cons_self)
  rcases (Flow.leads_local id).mp (hrest hfound) with ⟨rfl, rfl⟩ | ⟨r', rest', rfl, -⟩
  · cases hout
  · refine ⟨r', ?_⟩
    rw [hevents, ← hinput]
    exact List.mem_cons_of_mem _ List.mem_cons_self

end Runs

namespace Sample

/-- The challenge for sixteen zero bytes. -/
def issued : PaymentChallenge :=
  newChallenge cfg unpaid.resource (inputDigest libraries .null) (List.replicate 32 '0') 0 60

set_option maxRecDepth 100000 in
theorem payer_let_through_paying :
    ∃ r, .replied (.begin (txDigest libraries "AA==".toList) paidBinding) r ∈
      Pool.eventsOf 2 (start.play libraries paying) := by
  obtain ⟨tr₁, x, tr₂, hplay, hlabel, hnew⟩ : ∃ tr₁ x tr₂,
      start.play libraries paying = tr₁ ++ x :: tr₂ ∧
        x.label = .event 1 (.replied (.issue cfg unpaid.resource (inputDigest libraries .null) 0)
          (.ok (newRequirements cfg (List.replicate 32 '0'), issued))) (draw 0 0) ∧
        x.target.flow 2 = none := ⟨[_], _, _, rfl, rfl, rfl⟩
  have htimes : (start.play libraries paying).filterMap (fun y => madeAt y.label) = [0, 1] := rfl
  have htime : Timely issued.expiresAt (start.play libraries paying) := by
    intro y hy now hnow
    have hmade : now ∈ ([0, 1] : List Int64) := htimes ▸ List.mem_filterMap.mpr ⟨y, hy, hnow⟩
    rcases List.mem_cons.mp hmade with rfl | hmade
    · decide
    · cases List.mem_singleton.mp hmade
      decide
  have hpays : paid.Pays libraries unpaid.resource (newRequirements cfg (List.replicate 32 '0'))
      "AA==".toList := ⟨_, "AA==".toList, [0], rfl, rfl, rfl, rfl, by decide, by decide⟩
  have hret : (start.after libraries paying).returned 2 paid (.ok (.ok paidResult)) := ⟨_, rfl, rfl⟩
  have hrun := start.run_play (L := libraries) paying
  rw [hplay] at htime hrun ⊢
  exact payer_let_through hrun hlabel htime hnew hpays rfl hret

end Sample

end AgentBond.Payments
