import AgentBond.Payments.PaidResults

/-! # One request at a time at the facilitator

Requests that pay with one transaction are let through to the facilitator one
after the other: the next one gets the lease when the one before has given it
back, has had its result stored, or has held it for thirty seconds. Once the
database has stored a result, no request gets the lease any more.
-/

namespace AgentBond.Payments

open Foundation

variable {S : SettlementStore} {C : ChallengeStore} {L : Libraries} {H : S.Lawful} {J : C.Lawful}
  {tr tr₁ tr₂ tr₃ : Trace S C} {w : World S C} {i j : ℕ} {o : Order} {k k' : Text}
  {b b' : SettlementBinding} {l l' : LeaseToken} {t t' : ℕ}
  {x y : Transition (World S C) (Act ℕ Draw Order Ask Ask.Reply)}

/-- The lease a step gives. -/
def leaseOf : Act ℕ Draw Order Ask Ask.Reply → Option LeaseToken
  | .event _ (.replied (.begin _ _) (.ok outcome)) _ => outcome.granted
  | _ => none

/-- No token is drawn for two leases. -/
def Fresh (tr : Trace S C) : Prop := (tr.filterMap fun x => leaseOf x.label).Nodup

/-- The request has asked the facilitator about a payment with this transaction. -/
def Asks (L : Libraries) (i : ℕ) (k : Text) (tr : Trace S C) : Prop :=
  ∃ q, (.sent (.verify q) ∈ Pool.eventsOf i tr ∨ .sent (.settle q) ∈ Pool.eventsOf i tr) ∧
    k = txDigest L q.paymentPayload.payload.transaction.trim

/-- The holder of the lease has given it back, or has had its result stored. -/
def GivesBack (i : ℕ) (k : Text) (b : SettlementBinding) (l : LeaseToken) (tr : Trace S C) : Prop :=
  (∃ u, .replied (.fail k b l) u ∈ Pool.eventsOf i tr) ∨
    ∃ result, .replied (.complete k b l result) (.ok ()) ∈ Pool.eventsOf i tr

theorem Grants.unique (h : Grants i k b l t x) (h' : Grants j k' b' l' t' x) :
    i = j ∧ k = k' ∧ b = b' ∧ l = l' ∧ t = t' := by
  obtain ⟨outcome, d, hlabel, hl, rfl⟩ := h
  obtain ⟨outcome', d', hlabel', hl', rfl⟩ := h'
  cases hlabel.symm.trans hlabel'
  cases hl.symm.trans hl'
  exact ⟨rfl, rfl, rfl, rfl, rfl⟩

theorem Grants.leaseOf (h : Grants i k b l t x) : leaseOf x.label = some l := by
  obtain ⟨outcome, d, hlabel, hl, -⟩ := h
  rw [hlabel]
  exact hl

theorem Fresh.ne (hfresh : Fresh (tr₁ ++ tr₂)) (hx : x ∈ tr₁) (hy : y ∈ tr₂)
    (h : Grants i k b l t x) : ¬ Grants j k' b' l t' y := by
  intro h'
  rw [Fresh, List.filterMap_append, List.nodup_append] at hfresh
  exact hfresh.2.2 l (List.mem_filterMap.mpr ⟨x, hx, h.leaseOf⟩) l
    (List.mem_filterMap.mpr ⟨y, hy, h'.leaseOf⟩) rfl

theorem Fresh.left (hfresh : Fresh (tr₁ ++ tr₂)) : Fresh tr₁ := by
  rw [Fresh, List.filterMap_append, List.nodup_append] at hfresh
  exact hfresh.1

theorem Fresh.unique (hfresh : Fresh tr) (hx : x ∈ tr) (hy : y ∈ tr) (h : Grants i k b l t x)
    (h' : Grants j k' b' l t' y) : i = j ∧ k = k' ∧ b = b' ∧ t = t' := by
  by_cases hxy : x = y
  · subst hxy
    obtain ⟨rfl, rfl, rfl, -, rfl⟩ := h.unique h'
    exact ⟨rfl, rfl, rfl, rfl⟩
  · obtain ⟨tr₁, tr₂, rfl⟩ := List.append_of_mem hx
    rcases List.mem_append.mp hy with hy | hy
    · exact absurd h (hfresh.ne hy List.mem_cons_self h')
    · rcases List.mem_cons.mp hy with rfl | hy
      · exact absurd rfl hxy
      · rw [List.append_cons] at hfresh
        exact absurd h' (hfresh.ne (by simp) hy h)

theorem Leased.grants {o : Order} {p : Payment} (h : Leased L o (Pool.eventsOf i tr) p l) :
    ∃ x ∈ tr, ∃ t, Grants i (p.digestKey L) (p.binding L) l t x := by
  obtain ⟨outcome, hl, hb⟩ := h.granted
  obtain ⟨x, hx, d, hlabel⟩ := Pool.mem_eventsOf.mp hb
  exact ⟨x, hx, d.now, outcome, d, hlabel, hl, rfl⟩

theorem grants_of_asks (h : Serves L tr w) (hi : Asks L i k tr) :
    ∃ x ∈ tr, ∃ b l t, Grants i k b l t x := by
  obtain ⟨q, hq, rfl⟩ := hi
  obtain ⟨o, out, hstage⟩ : ∃ o out, Stage L o (Pool.eventsOf i tr) out := by
    rcases hq with hq | hq
    · exact stage_of_mem h hq
    · exact stage_of_mem h hq
  obtain ⟨p, l, hleased, rfl⟩ := hstage.of_asked hq
  obtain ⟨x, hx, t, hgrant⟩ := hleased.grants
  rw [Payment.digestKey, hleased.valid.answers.trimmed] at hgrant
  exact ⟨x, hx, _, l, t, hgrant⟩

/-- A lease is given back by the request it was given to. -/
theorem gives_back_of_released (h : Serves L tr w) (hfresh : Fresh tr) (hx : x ∈ tr)
    (hgrant : Grants i k b l t x) (hreleased : Released l tr) : GivesBack i k b l tr := by
  rcases hreleased with ⟨k', b', u, m, hm⟩ | ⟨k', b', result, m, hm⟩
  · obtain ⟨o, out, hstage⟩ := stage_of_mem h hm
    obtain ⟨p, hleased, rfl, rfl, -⟩ := hstage.of_fail hm
    obtain ⟨y, hy, t', hgrant'⟩ := hleased.grants
    obtain ⟨rfl, rfl, rfl, -⟩ := hfresh.unique hx hy hgrant hgrant'
    exact .inl ⟨u, hm⟩
  · obtain ⟨o, out, hstage⟩ := stage_of_mem h hm
    obtain ⟨p, hleased, rfl, rfl, -⟩ := hstage.of_complete hm
    obtain ⟨y, hy, t', hgrant'⟩ := hleased.grants
    obtain ⟨rfl, rfl, rfl, -⟩ := hfresh.unique hx hy hgrant hgrant'
    exact .inr ⟨result, hm⟩

/-- A lease that is given after another one finds it released or run out. -/
theorem lease_passed_on (h : Serves L (tr₁ ++ y :: tr₂) w) (H : S.Lawful) (J : C.Lawful)
    (hx : x ∈ tr₁) (hgrant : Grants i k b l t x) (hgrant' : Grants j k b' l' t' y) :
    Released l tr₁ ∨ t + terms.leaseTtl < t' := by
  by_contra hno
  obtain ⟨hreleased, htime⟩ := not_or.mp hno
  obtain ⟨outcome, d, hlabel, hl, rfl⟩ := hgrant'
  obtain ⟨heffect, -⟩ := stage_of_event h hlabel
  obtain ⟨hclock, -, -⟩ := heffect.settlements
  have hheld := (recorded_of_run h.split.1 H J).held x hx i k b l t hgrant hreleased (by omega)
  exact htime ((H.granted heffect.begin hl).2 b l t hheld)

/-- The second request was given the lease of the transaction after the first one, which had given
it back or had its result stored by then, or had held it for longer than thirty seconds. -/
def TakesOver (k : Text) (i j : ℕ) (tr : Trace S C) : Prop :=
  ∃ tr₁ x tr₂ b b' l l' t t', tr = tr₁ ++ x :: tr₂ ∧ (∃ y ∈ tr₁, Grants i k b l t y) ∧
    Grants j k b' l' t' x ∧ (GivesBack i k b l tr₁ ∨ t + seconds 30 < t')

theorem takes_over (h : Serves L (tr₁ ++ y :: tr₂) w) (H : S.Lawful) (J : C.Lawful)
    (hfresh : Fresh (tr₁ ++ y :: tr₂)) (hx : x ∈ tr₁) (hgrant : Grants i k b l t x)
    (hgrant' : Grants j k b' l' t' y) : TakesOver k i j (tr₁ ++ y :: tr₂) := by
  refine ⟨tr₁, y, tr₂, b, b', l, l', t, t', rfl, ⟨x, hx, hgrant⟩, hgrant', ?_⟩
  rcases lease_passed_on h H J hx hgrant hgrant' with hreleased | htime
  · exact .inl (gives_back_of_released h.split.1 hfresh.left hx hgrant hreleased)
  · exact .inr htime

/-- Two requests that ask the facilitator about one transaction do so one after the other: the later
one takes over a lease that was given back, whose result was stored, or that has run out. -/
theorem facilitator_exclusive (h : Serves L tr w) (H : S.Lawful) (J : C.Lawful)
    (hfresh : Fresh tr) (hij : i ≠ j) (hi : Asks L i k tr) (hj : Asks L j k tr) :
    TakesOver k i j tr ∨ TakesOver k j i tr := by
  obtain ⟨x, hx, b, l, t, hgrant⟩ := grants_of_asks h hi
  obtain ⟨y, hy, b', l', t', hgrant'⟩ := grants_of_asks h hj
  obtain ⟨tr₁, tr₂, rfl⟩ := List.append_of_mem hy
  rcases List.mem_append.mp hx with hx | hx
  · exact .inl (takes_over h H J hfresh hx hgrant hgrant')
  · rcases List.mem_cons.mp hx with rfl | hx
    · exact absurd (hgrant.unique hgrant').1 hij
    · obtain ⟨tr₂, tr₃, rfl⟩ := List.append_of_mem hx
      right
      have hsplit : tr₁ ++ y :: (tr₂ ++ x :: tr₃) = (tr₁ ++ y :: tr₂) ++ x :: tr₃ := by simp
      rw [hsplit] at h hfresh ⊢
      exact takes_over h H J hfresh (by simp) hgrant' hgrant

/-- A lease is not given once the result of the transaction is stored. -/
theorem not_stored_of_granted (hp : H.Permanent) (h : Serves L (tr₁ ++ y :: tr₂) w)
    (hgrant : Grants j k b l t y) {result : PaidDemoResult} :
    ¬ Pool.Happened (.replied (.complete k b' l' result) (.ok ())) tr₁ := by
  intro hstored
  have hcell := settled_of_stored hp h.split.1 hstored
  obtain ⟨outcome, d, hlabel, hl, -⟩ := hgrant
  have hstep := (stage_of_event h hlabel).1.begin
  cases (H.granted hstep hl).1.symm.trans (hp hstep hcell)

/-- When the facilitator has settled a transaction for a request, the database gives its lease to
another request later only if the result has not been stored, and only more than thirty seconds
after the first one was given it. -/
theorem settled_not_resent {tr₁ tr₂ : Trace pgStore C} {w : World pgStore C}
    {x y : Transition (World pgStore C) (Act ℕ Draw Order Ask Ask.Reply)}
    (h : Serves L (tr₁ ++ y :: tr₂) w) (J : C.Lawful) (hfresh : Fresh (tr₁ ++ y :: tr₂))
    (hx : x ∈ tr₁) (hgrant : Grants i k b l t x) (hgrant' : Grants j k b' l' t' y)
    {q : VerifyRequest} {s : SettleResponse} (hs : s.success = true)
    (hsettled : .replied (.settle q) (.ok s) ∈ Pool.eventsOf i (tr₁ ++ y :: tr₂)) :
    t + seconds 30 < t' ∧ ∀ b' l' result,
      ¬ Pool.Happened (.replied (.complete k b' l' result) (.ok ())) tr₁ := by
  refine ⟨?_, fun b' l' result => not_stored_of_granted Pg.permanent h hgrant'⟩
  rcases lease_passed_on h Pg.lawful J hx hgrant hgrant' with hreleased | htime
  · rcases gives_back_of_released h.split.1 hfresh.left hx hgrant hreleased with ⟨u, hu⟩ |
      ⟨result, hr⟩
    · have hall : .replied (.fail k b l) u ∈ Pool.eventsOf i (tr₁ ++ y :: tr₂) := by
        rw [Pool.eventsOf_append]
        exact List.mem_append_left _ hu
      obtain ⟨o, out, hstage⟩ := stage_of_mem h hall
      obtain ⟨p, -, -, -, hfailed⟩ := hstage.of_fail hall
      cases hs.symm.trans (hfailed q s hsettled)
    · exact absurd ⟨i, hr⟩ (not_stored_of_granted Pg.permanent h hgrant')
  · exact htime

theorem grants_of_taken {tr : Trace S C} {w w' : World S C}
    (h : Run (Pool.Step (rules L S C)) w tr w')
    (hbefore : H.cellAt w.shared.settlements.rows k ≠ some (.settling b l t))
    (hafter : H.cellAt w'.shared.settlements.rows k = some (.settling b l t)) :
    ∃ x ∈ tr, ∃ i, Grants i k b l t x := by
  obtain ⟨x, hx, hnot, hheld⟩ := Run.exists_enter
    (A := fun w => H.cellAt w.shared.settlements.rows k = some (.settling b l t)) h hbefore hafter
  refine ⟨x, hx, ?_⟩
  obtain ⟨-, hstep⟩ := h.step_of_mem (I := fun _ => True) (fun _ _ _ _ _ => trivial) trivial hx
  obtain ⟨source, label, target⟩ := x
  change Pool.Step (rules L S C) source label target at hstep
  cases hstep with
  | start => exact absurd hheld hnot
  | drift drifts => exact absurd ((H.reorder drifts.2.1 k).symm.trans hheld) hnot
  | @event i _ _ _ _ d _ here moves effect =>
    obtain ⟨-, hnow, hsame | ⟨ask, r, call, rfl, hcall, hs⟩⟩ := Effect.settlements effect
    · exact absurd (hsame ▸ hheld) hnot
    · rcases H.taken hs hheld with hold | ⟨lease, outcome, rfl, hl⟩
      · exact absurd hold hnot
      · exact ⟨i, outcome, d, congrArg (Act.event i · d) (Ask.event_of_call hcall), hl,
          hnow.symm.trans hs.2.1⟩

theorem not_held_of_given_back (h : Serves L tr w) (H : S.Lawful) (hfresh : Fresh tr)
    (hback : GivesBack i k b l tr) :
    H.cellAt w.shared.settlements.rows k ≠ some (.settling b l t) := by
  obtain ⟨tr₁, y, tr₂, rfl, ⟨x, hx, t', hgrant⟩, hfree⟩ : ∃ tr₁ y tr₂, tr = tr₁ ++ y :: tr₂ ∧
      (∃ x ∈ tr₁, ∃ t, Grants i k b l t x) ∧
      H.cellAt y.target.shared.settlements.rows k ≠ some (.settling b l t) := by
    rcases hback with ⟨u, hu⟩ | ⟨result, hr⟩
    · obtain ⟨tr₁, y, tr₂, d, rfl, hlabel, h₁, heffect⟩ := h.cut hu
      obtain ⟨-, o, out, hstage⟩ := stage_of_event h hlabel
      obtain ⟨p, hleased, rfl, rfl, -⟩ :=
        hstage.of_fail (List.mem_append_right _ List.mem_cons_self)
      exact ⟨tr₁, y, tr₂, rfl, (hleased.of_last (by simp)).grants, heffect.fail⟩
    · obtain ⟨tr₁, y, tr₂, d, rfl, hlabel, h₁, heffect⟩ := h.cut hr
      obtain ⟨-, o, out, hstage⟩ := stage_of_event h hlabel
      obtain ⟨p, hleased, rfl, rfl, -⟩ :=
        hstage.of_complete (List.mem_append_right _ List.mem_cons_self)
      refine ⟨tr₁, y, tr₂, rfl, (hleased.of_last (by simp)).grants, fun hheld => ?_⟩
      cases hheld.symm.trans heffect.complete
  intro hheld
  obtain ⟨z, hz, j, hgrant'⟩ := grants_of_taken h.split.2.2 hfree hheld
  exact hfresh.ne hx (List.mem_cons_of_mem _ hz) hgrant hgrant'

/-- A finished request leaves its transaction locked only if the facilitator has settled it and the
result could not be stored or written. -/
theorem locked_by_finished (h : Serves L tr w) (H : S.Lawful) (hfresh : Fresh tr) {out : Outcome}
    (hret : w.returned i o out) (hx : x ∈ tr) (hgrant : Grants i k b l t x)
    (hlocked : H.cellAt w.shared.settlements.rows k' = some (.settling b' l t')) :
    (∃ q s, .replied (.settle q) (.ok s) ∈ Pool.eventsOf i tr ∧ s.success = true) ∧
      ∃ e, out = .error e := by
  obtain ⟨z, hz, j, hgrant'⟩ := grants_of_taken (H := H) h
    (fun hc => by cases (H.empty k').symm.trans hc) hlocked
  obtain ⟨rfl, rfl, rfl, rfl⟩ := hfresh.unique hx hz hgrant hgrant'
  obtain ⟨f, hf, hout⟩ := hret
  have hstage := stage_of_run h hf
  rw [hout] at hstage
  obtain ⟨outcome, d, hlabel, hl, -⟩ := id hgrant
  have hb := Pool.mem_eventsOf.mpr ⟨x, hx, d, hlabel⟩
  rcases hstage.of_finished hb hl with hfail | hcomplete | hsettled
  · exact absurd hlocked (not_held_of_given_back h H hfresh (.inl hfail))
  · exact absurd hlocked (not_held_of_given_back h H hfresh (.inr hcomplete))
  · exact hsettled

namespace Sample

/-- The payment as the facilitator is asked about it. -/
def request : VerifyRequest := ⟨x402Version, payload, newRequirements cfg (List.replicate 32 '0')⟩

/-- A request goes on, with what the facilitator says of the payment. -/
def told (i now : ℕ) (verify : Paid VerifyResponse) : Move :=
  .go i (draw now now) verify (.ok settledBy)

/-- The facilitator does not answer the first request in time, and approves of the second one. -/
def retrying : List Move :=
  priced ++ [.start 2 paid, go 2 1, go 2 2, go 2 3, told 2 4 (.error .verifyTimeout), go 2 5,
    .start 3 paid, go 3 (seconds 3), go 3 (seconds 4), go 3 (seconds 5)]

set_option maxRecDepth 100000 in
theorem facilitator_exclusive_retrying :
    TakesOver digest 2 3 (start.play libraries retrying) ∨
      TakesOver digest 3 2 (start.play libraries retrying) := by
  have hfresh : Fresh (start.play libraries retrying) := by
    have hleases : (start.play libraries retrying).filterMap (fun x => leaseOf x.label) =
        [⟨2⟩, ⟨seconds 4⟩] := rfl
    rw [Fresh, hleases]
    decide
  have hasks : ∀ i ∈ [2, 3], Asks libraries i digest (start.play libraries retrying) := by
    intro i hi
    simp only [List.mem_cons, List.not_mem_nil, or_false] at hi
    rcases hi with rfl | rfl
    · exact ⟨request, .inl (List.mem_cons_of_mem _ (List.mem_cons_of_mem _ List.mem_cons_self)),
        rfl⟩
    · exact ⟨request, .inl (List.mem_cons_of_mem _ (List.mem_cons_of_mem _ List.mem_cons_self)),
        rfl⟩
  exact facilitator_exclusive (start.run_play retrying) Pg.lawful PgChallengeStore.lawful
    hfresh (by decide) (hasks 2 (by simp)) (hasks 3 (by simp))

/-- The facilitator settles the first request, which then stops, and a second one comes. -/
def stopping : List Move :=
  priced ++ [.start 2 paid, go 2 1, go 2 2, go 2 3, go 2 4, go 2 5, go 2 6,
    .start 3 paid, go 3 (seconds 31)]

set_option maxRecDepth 100000 in
theorem settled_not_resent_stopping :
    2 + seconds 30 < seconds 32 ∧ ∀ b l result,
      ¬ Pool.Happened (.replied (.complete digest b l result) (.ok ()))
        (start.play libraries stopping) := by
  obtain ⟨y, hmove, hgrant'⟩ : ∃ y,
      (start.after libraries stopping).move libraries (go 3 (seconds 32)) = some y ∧
        Grants 3 digest paidBinding ⟨seconds 32⟩ (seconds 32) y :=
        ⟨_, rfl, _, draw _ _, rfl, rfl, rfl⟩
  obtain ⟨x, hx, hgrant⟩ :
      ∃ x ∈ start.play libraries stopping, Grants 2 digest paidBinding ⟨2⟩ 2 x :=
    ⟨_, List.mem_of_getElem? (i := 4) rfl, _, _, rfl, rfl, rfl⟩
  have hfresh : Fresh (start.play libraries stopping ++ [y]) := by
    have hleases : (start.play libraries stopping).filterMap (fun x => leaseOf x.label) = [⟨2⟩] :=
      rfl
    have hlast : [y].filterMap (fun x => leaseOf x.label) = [⟨seconds 32⟩] :=
      List.filterMap_cons_some hgrant'.leaseOf
    rw [Fresh, List.filterMap_append, hleases, hlast]
    decide
  have hsettled : .replied (.settle request) (.ok settledBy) ∈
      Pool.eventsOf 2 (start.play libraries stopping ++ [y]) := by
    rw [Pool.eventsOf_append]
    exact List.mem_append_left _ (List.mem_of_getElem? (i := 5) rfl)
  obtain ⟨hsource, hstep⟩ := World.move_step hmove
  have hrun : Serves libraries (start.play libraries stopping ++ [y]) y.target :=
    Run.append_iff.mpr ⟨_, start.run_play stopping, hsource, hsource ▸ hstep, rfl⟩
  exact settled_not_resent hrun PgChallengeStore.lawful hfresh hx hgrant hgrant'
    (s := settledBy) rfl
    hsettled

/-- An input the database cannot store. -/
def unstorable : Order := { paid with input := .string [Char.ofNat 0] }

def losing : List Move :=
  priced ++ [.start 2 unstorable, go 2 1, go 2 2, go 2 3, go 2 4, go 2 5, go 2 6, go 2 7]

set_option maxRecDepth 100000 in
theorem locked_by_finished_losing :
    (∃ q s, .replied (.settle q) (.ok s) ∈ Pool.eventsOf 2 (start.play libraries losing) ∧
      s.success = true) ∧ ∃ e, (.error databaseError : Outcome) = .error e := by
  have hfresh : Fresh (start.play libraries losing) := by
    have hleases : (start.play libraries losing).filterMap (fun x => leaseOf x.label) = [⟨2⟩] := rfl
    rw [Fresh, hleases]
    decide
  have hret : (start.after libraries losing).returned 2 unstorable (.error databaseError) :=
    ⟨_, rfl, rfl⟩
  obtain ⟨x, hx, hgrant⟩ : ∃ x ∈ start.play libraries losing, Grants 2 digest paidBinding ⟨2⟩ 2 x :=
    ⟨_, List.mem_of_getElem? (i := 4) rfl, _, _, rfl, rfl, rfl⟩
  have hlocked : Pg.lawful.cellAt (start.after libraries losing).shared.settlements.rows digest =
      some (.settling paidBinding ⟨2⟩ 2) := rfl
  exact locked_by_finished (start.run_play losing) Pg.lawful hfresh hret hx hgrant hlocked

end Sample

end AgentBond.Payments
