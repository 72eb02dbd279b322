import AgentBond.Payments.Challenges
import AgentBond.Payments.Remembering

/-! # What the stores have in common

A settlement store keeps a leased cell for each transaction and drops no cell
while its lease runs. A challenge store finds what it has issued, unexpired. The
stores in memory and those in the database meet these laws, whatever the order
of their rows.
-/

namespace AgentBond.Payments

open Foundation

/-- A store may drop a cell that is not being settled, or whose lease has run out. -/
def Droppable (now : ℕ) (c : Option LeaseCell) : Prop :=
  ∀ b l started, c = some (.settling b l started) → started + terms.leaseTtl < now

/-- Under each digest the store keeps a leased cell. -/
structure SettlementStore.Lawful (S : SettlementStore) where
  cellAt : Table Text S.Row → Text → Option LeaseCell
  empty : ∀ k, cellAt Table.empty k = none
  reorder : ∀ {rows rows' : Table Text S.Row}, rows'.rows.Perm rows.rows →
    ∀ k, cellAt rows' k = cellAt rows k
  begin : ∀ {now lease digest binding rows rows' r},
    S.begin now lease digest binding rows = (rows', r) →
    ∃ kept : Text → Option LeaseCell,
      (∀ k, kept k = cellAt rows k ∨ kept k = none ∧ Droppable now (cellAt rows k)) ∧
      (∀ k, k ≠ digest → cellAt rows' k = kept k) ∧
      ((∃ a, r = reply a ∧
          Cell.begin terms now lease binding (kept digest) = (cellAt rows' digest, a)) ∨
        (∃ message, r = .error (.internal message)) ∧ cellAt rows' digest = kept digest)
  complete : ∀ {now digest binding lease result rows rows' u},
    S.complete now digest binding lease result rows = (rows', u) →
    (∀ k, k ≠ digest → cellAt rows' k = cellAt rows k) ∧
      (Cell.complete binding lease result (cellAt rows digest) = (cellAt rows' digest, u.isOk) ∨
        cellAt rows' digest = cellAt rows digest ∧ u.isOk = false)
  fail : ∀ {now digest binding lease rows rows' u},
    S.fail now digest binding lease rows = (rows', u) →
    (∀ k, k ≠ digest → cellAt rows' k = cellAt rows k) ∧
      ∃ ok, Cell.fail now binding lease (cellAt rows digest) = (cellAt rows' digest, ok)

/-- The store finds the challenges it has issued. -/
structure ChallengeStore.Lawful (C : ChallengeStore) where
  found : Table Text C.Row → Text → Option PaymentChallenge
  empty : ∀ k, found Table.empty k = none
  reorder : ∀ {rows rows' : Table Text C.Row}, rows'.rows.Perm rows.rows →
    ∀ k, found rows' k = found rows k
  issue : ∀ {bytes cfg resource inputDigest issuedAt rows rows' r},
    C.issue bytes cfg resource inputDigest issuedAt rows = (rows', r) →
    (∀ k c, found rows' k = some c → found rows k = some c ∨ c.memo = k ∧ ∃ q, r = .ok (q, c)) ∧
      ∀ q c, r = .ok (q, c) → ∃ memo expiresAt, q = newRequirements cfg memo ∧
        c = newChallenge cfg resource inputDigest memo issuedAt expiresAt
  getValid : ∀ {memo now rows rows' r}, C.getValid memo now rows = (rows', r) →
    (∀ k c, found rows' k = some c → found rows k = some c) ∧
      ∀ c, r = .ok c → found rows memo = some c ∧ now ≤ c.expiresAt

/-- What a call can do to the cell under a digest. -/
inductive CellStep (k : Text) : Call → Option LeaseCell → Option LeaseCell → Prop
  | same {c cell} : CellStep k c cell cell
  | dropped {c cell} (free : Droppable c.now cell) : CellStep k c cell none
  | granted {now lease b outcome cell} (free : Droppable now cell)
      (gives : outcome.granted = some lease) :
      CellStep k (.begin now lease k b (.ok outcome)) cell (some (.settling b lease now))
  | completed {now b lease result started} :
      CellStep k (.complete now k b lease result (.ok ())) (some (.settling b lease started))
        (some (.settled b result))
  | failed {now b lease u started} :
      CellStep k (.fail now k b lease u) (some (.settling b lease started)) (some (.failed b now))

section Calls

variable {S : SettlementStore} (H : S.Lawful) {s s' : StoreState S.Row} {c : Call} {k : Text}
  {b : SettlementBinding} {l lease : LeaseToken} {result : PaidDemoResult} {outcome : BeginOutcome}
  {now t : ℕ} {cell : Option LeaseCell}

/-- A store that meets the laws does nothing else to a cell. -/
theorem SettlementStore.Lawful.cellStep (hs : S.Step s c s') (k : Text) :
    CellStep k c (H.cellAt s.rows k) (H.cellAt s'.rows k) := by
  obtain ⟨-, -, hcall⟩ := hs
  cases c with
  | begin now lease digest binding r =>
    obtain ⟨kept, hkept, hother, hself⟩ := H.begin hcall
    have hfree : Droppable now (kept k) → Droppable now (H.cellAt s.rows k) := by
      intro h
      rcases hkept k with he | ⟨-, hold⟩
      · exact he ▸ h
      · exact hold
    have hunchanged : H.cellAt s'.rows k = kept k →
        CellStep k (.begin now lease digest binding r) (H.cellAt s.rows k)
          (H.cellAt s'.rows k) := by
      intro hsame
      rcases hkept k with h | ⟨h, hold⟩
      · rw [hsame, h]
        exact .same
      · rw [hsame, h]
        exact .dropped hold
    by_cases hd : k = digest
    · subst hd
      rcases hself with ⟨a, rfl, hbegin⟩ | ⟨-, hsame⟩
      · have hbegun := Cell.begun hbegin
        generalize H.cellAt s'.rows k = new at hbegun hunchanged ⊢
        generalize kept k = old at hbegun hunchanged hfree
        cases hbegun with
        | acquired takeable =>
          exact .granted (hfree fun b l started hc => by cases (takeable _ hc).2.2) rfl
        | recovered expired =>
          exact .granted (hfree fun b l started hc => by cases hc; exact expired) rfl
        | cached | busy | mismatch => exact hunchanged rfl
      · exact hunchanged hsame
    · exact hunchanged (hother k hd)
  | complete now digest binding lease result u =>
    obtain ⟨hother, hself⟩ := H.complete hcall
    by_cases hd : k = digest
    · subst hd
      rcases hself with hcomplete | ⟨hsame, -⟩
      · cases u with
        | ok u =>
          obtain ⟨⟨started, hheld⟩, hnew⟩ := Cell.complete_true hcomplete
          rw [hheld, hnew]
          exact .completed
        | error e =>
          rw [(Cell.complete_false hcomplete).2]
          exact .same
      · rw [hsame]
        exact .same
    · rw [hother k hd]
      exact .same
  | fail now digest binding lease u =>
    obtain ⟨hother, ok, hfail⟩ := H.fail hcall
    by_cases hd : k = digest
    · subst hd
      cases ok with
      | true =>
        obtain ⟨⟨started, hheld⟩, hnew⟩ := Cell.fail_true hfail
        rw [hheld, hnew]
        exact .failed
      | false =>
        rw [(Cell.fail_false hfail).2]
        exact .same
    · rw [hother k hd]
      exact .same

theorem SettlementStore.Lawful.settled (hs : S.Step s c s')
    (hcell : H.cellAt s'.rows k = some (.settled b result)) :
    H.cellAt s.rows k = some (.settled b result) ∨
      ∃ now lease, c = .complete now k b lease result (.ok ()) := by
  have hstep := H.cellStep hs k
  rw [hcell] at hstep
  generalize H.cellAt s.rows k = old at hstep
  cases hstep with
  | same => exact .inl rfl
  | completed => exact .inr ⟨_, _, rfl⟩

/-- A cell stays with its holder while the lease runs, unless the holder gives it back. -/
theorem SettlementStore.Lawful.held (hs : S.Step s c s')
    (hcell : H.cellAt s.rows k = some (.settling b l t)) (htime : c.now ≤ t + terms.leaseTtl) :
    H.cellAt s'.rows k = some (.settling b l t) ∨ (∃ now u, c = .fail now k b l u) ∨
      ∃ now result, c = .complete now k b l result (.ok ()) := by
  have hstep := H.cellStep hs k
  rw [hcell] at hstep
  generalize H.cellAt s'.rows k = new at hstep
  cases hstep with
  | same => exact .inl rfl
  | dropped free =>
    have hexpired := free b l t rfl
    exact absurd hexpired (Nat.not_lt.mpr htime)
  | granted free =>
    have hexpired := free b l t rfl
    exact absurd hexpired (Nat.not_lt.mpr htime)
  | completed => exact .inr (.inr ⟨_, _, rfl⟩)
  | failed => exact .inr (.inl ⟨_, _, rfl⟩)

theorem reply_ok {a : Answer LeaseToken PaidDemoResult} (h : .ok outcome = reply a) :
    a.granted = outcome.granted ∧ ∀ res, outcome = .cached res → a = .cached res := by
  cases a with
  | cached | acquired | recovered =>
    cases h
    exact ⟨rfl, fun _ hr => by cases hr <;> rfl⟩
  | busy | mismatch => cases h

theorem SettlementStore.Lawful.granted (hs : S.Step s (.begin now lease k b (.ok outcome)) s')
    (hgranted : outcome.granted = some l) :
    H.cellAt s'.rows k = some (.settling b l now) ∧ Droppable now (H.cellAt s.rows k) := by
  obtain ⟨-, -, hcall⟩ := hs
  obtain ⟨kept, hkept, -, ⟨a, ha, hbegin⟩ | ⟨⟨message, herr⟩, -⟩⟩ := H.begin hcall
  · have hbegun := Cell.begun hbegin
    have hl : a.granted = some l := (reply_ok ha).1.trans hgranted
    have hlease : l = lease := by
      generalize kept k = c at hbegun
      generalize H.cellAt s'.rows k = c' at hbegun
      cases hbegun with
      | acquired | recovered => cases hl; rfl
      | cached | busy | mismatch => cases hl
    subst hlease
    refine ⟨hbegun.of_granted hl, ?_⟩
    rcases hkept k with h | ⟨-, hold⟩
    · rw [← h]
      intro b₀ l₀ t₀ hcell
      rw [hcell] at hbegun
      generalize H.cellAt s'.rows k = c' at hbegun
      cases hbegun with
      | acquired takeable => cases (takeable _ rfl).2.2
      | recovered expired => exact expired
      | busy | mismatch => cases hl
    · exact hold
  · cases herr

theorem SettlementStore.Lawful.taken (hs : S.Step s c s')
    (hcell : H.cellAt s'.rows k = some (.settling b l t)) :
    H.cellAt s.rows k = some (.settling b l t) ∨
      ∃ lease outcome, c = .begin t lease k b (.ok outcome) ∧ outcome.granted = some l := by
  have hstep := H.cellStep hs k
  rw [hcell] at hstep
  generalize H.cellAt s.rows k = old at hstep
  cases hstep with
  | same => exact .inl rfl
  | granted free gives => exact .inr ⟨_, _, rfl, gives⟩

theorem SettlementStore.Lawful.cached
    (hs : S.Step s (.begin now lease k b (.ok (.cached result))) s') :
    H.cellAt s.rows k = some (.settled b result) := by
  obtain ⟨-, -, hcall⟩ := hs
  obtain ⟨kept, hkept, -, ⟨a, ha, hbegin⟩ | ⟨⟨message, herr⟩, -⟩⟩ := H.begin hcall
  · have hcached := (reply_ok ha).2 result rfl
    have hbegun := Cell.begun hbegin
    rw [hcached] at hbegun
    rcases hkept k with h | ⟨h, -⟩
    · rw [h] at hbegun
      generalize H.cellAt s.rows k = c at hbegun
      generalize H.cellAt s'.rows k = c' at hbegun
      cases hbegun with
      | cached => rfl
    · rw [h] at hbegun
      generalize H.cellAt s'.rows k = c' at hbegun
      cases hbegun
  · cases herr

end Calls

section Settlements

open Memory

variable {now : ℕ} {digest k : Text} {m : Entries}

theorem Memory.get_evict_or : (evict now m).get k = m.get k ∨
    (evict now m).get k = none ∧ ∀ s, m.get k = some s → entryTtl < now - s.since := by
  rw [get_evict]
  cases hget : m.get k with
  | none => exact .inl rfl
  | some s =>
    by_cases hold : now - s.since ≤ entryTtl
    · exact .inl (Option.filter_some_pos (decide_eq_true hold))
    · refine .inr ⟨Option.filter_some_neg (by simpa using hold), fun s' hs => ?_⟩
      cases hs
      exact Nat.lt_of_not_le hold

theorem Memory.get_makeRoom_or : (makeRoom now m).get k = m.get k ∨
    (makeRoom now m).get k = none ∧ ∀ s, m.get k = some s → s.isSettling = false := by
  rcases get_makeRoom now m k with h | h
  · exact .inl h
  · refine .inr ⟨h, fun s hs => ?_⟩
    have hdropped : (makeRoom now m).get k ≠ some s := fun hs' => by cases h.symm.trans hs'
    exact (get_makeRoom_cases hs hdropped).2.1

theorem Memory.get_kept_or : (kept now digest m).get k = m.get k ∨
    (kept now digest m).get k = none ∧
      ∀ b l started, m.get k = some (.settling b l started) → started + terms.leaseTtl < now := by
  have hage : ∀ b l started, entryTtl < now - (State.settling b l started).since →
      started + terms.leaseTtl < now := by
    intro b l started h
    simp only [State.since, entryTtl, terms, seconds] at h ⊢
    omega
  unfold kept
  split
  · rcases @get_evict_or now k m with h | ⟨h, hold⟩
    · exact .inl h
    · exact .inr ⟨h, fun b l started hs => hage b l started (hold _ hs)⟩
  · rcases @get_makeRoom_or now k (evict now m) with h | ⟨h, hfinished⟩
    · rw [h]
      rcases @get_evict_or now k m with h' | ⟨h', hold⟩
      · exact .inl h'
      · exact .inr ⟨h', fun b l started hs => hage b l started (hold _ hs)⟩
    · refine .inr ⟨h, fun b l started hs => ?_⟩
      rcases @get_evict_or now k m with h' | ⟨h', hold⟩
      · cases hfinished _ (h'.trans hs)
      · exact hage b l started (hold _ hs)

theorem Memory.cell_eq_settling {s : State} {b : SettlementBinding} {l : LeaseToken} {started : ℕ}
    (h : s.cell = .settling b l started) : s = .settling b l started := by
  cases s with
  | settling => cases h; rfl
  | settled | failed => cases h

theorem Memory.cellAt_kept : cellAt (kept now digest m) k = cellAt m k ∨
    cellAt (kept now digest m) k = none ∧ Droppable now (cellAt m k) := by
  rcases @get_kept_or now digest k m with h | ⟨h, hold⟩
  · exact .inl (by rw [cellAt, cellAt, h])
  · refine .inr ⟨by rw [cellAt, h, Option.map_none], fun b l started hs => ?_⟩
    obtain ⟨s, hget, hcell⟩ := Option.map_eq_some_iff.mp hs
    rw [cell_eq_settling hcell] at hget
    exact hold b l started hget

theorem Memory.cellAt_congr {m m' : Entries} (h : m'.get k = m.get k) :
    cellAt m' k = cellAt m k := by
  rw [cellAt, cellAt, h]

theorem Pg.cellAt_congr {rows rows' : Pg.Rows} (h : rows'.get k = rows.get k) :
    Pg.cellAt rows' k = Pg.cellAt rows k := by
  rw [Pg.cellAt, Pg.cellAt, h]

def Memory.lawful : memoryStore.Lawful where
  cellAt := cellAt
  empty := fun _ => rfl
  reorder := fun h k => cellAt_congr (Table.get_of_perm h k)
  begin := fun h => by
    obtain ⟨hother, a, hr, hbegin⟩ := begin_cell h
    exact ⟨_, fun _ => cellAt_kept, fun k hk => cellAt_congr (hother k hk), .inl ⟨a, hr, hbegin⟩⟩
  complete := fun h => by
    obtain ⟨hother, hcell⟩ := complete_cell h
    exact ⟨fun k hk => cellAt_congr (hother k hk), .inl hcell⟩
  fail := fun h => by
    obtain ⟨hother, hcell⟩ := fail_cell h
    exact ⟨fun k hk => cellAt_congr (hother k hk), hcell⟩

def Pg.lawful : pgStore.Lawful where
  cellAt := Pg.cellAt
  empty := fun _ => rfl
  reorder := fun h k => Pg.cellAt_congr (Table.get_of_perm h k)
  begin := fun h => by
    obtain ⟨hother, ⟨a, hr, -, -, hbegin, -⟩ | ⟨hr, rfl, -⟩⟩ := Pg.begin_cell h
    · exact ⟨_, fun _ => .inl rfl, fun k hk => Pg.cellAt_congr (hother k hk), .inl ⟨a, hr, hbegin⟩⟩
    · exact ⟨_, fun _ => .inl rfl, fun _ _ => rfl, .inr ⟨hr, rfl⟩⟩
  complete := fun {now _ _ _ _ _ _ _} h => by
    obtain ⟨hother, ⟨-, hcell⟩ | ⟨-, ⟨message, rfl⟩, rfl⟩⟩ := Pg.complete_cell now h
    · exact ⟨fun k hk => Pg.cellAt_congr (hother k hk), .inl hcell⟩
    · exact ⟨fun _ _ => rfl, .inr ⟨rfl, rfl⟩⟩
  fail := fun h => by
    obtain ⟨hother, hcell⟩ := Pg.fail_cell h
    exact ⟨fun k hk => Pg.cellAt_congr (hother k hk), _, hcell⟩

end Settlements

section MemoryChallenges

open MemoryChallengeStore

variable {memo k : Text} {now issuedAt : Int64} {c : PaymentChallenge} {map map' : Map}
  {bytes : Option (Bytes 16)} {cfg : X402ResourceConfig} {resource : ResourceInfo}
  {inputDigest : Text}

theorem MemoryChallengeStore.get_evictExpired : (evictExpired now map).get k =
    (map.get k).filter fun c => decide (now ≤ c.expiresAt) := by
  rw [evictExpired, Table.get_deleteWhere]
  congr 1
  funext c
  exact Bool.not_not _

theorem MemoryChallengeStore.get_makeRoom :
    (makeRoom map).get k = map.get k ∨ (makeRoom map).get k = none := by
  unfold makeRoom
  split
  · unfold evictOldest
    split
    · rw [Table.get_deleteWhere]
      exact filter_eq_or _ _
    · exact .inl rfl
  · exact .inl rfl

theorem MemoryChallengeStore.issue_found {r : Paid (PaymentRequirements × PaymentChallenge)}
    (h : issue bytes cfg resource inputDigest issuedAt map = (map', r)) :
    (∀ k c, map'.get k = some c → map.get k = some c ∨ c.memo = k ∧ ∃ q, r = .ok (q, c)) ∧
      ∀ q c, r = .ok (q, c) → ∃ memo expiresAt, q = newRequirements cfg memo ∧
        c = newChallenge cfg resource inputDigest memo issuedAt expiresAt := by
  unfold issue at h
  split at h
  · cases h
    exact ⟨fun _ _ hk => .inl hk, fun _ _ hr => by cases hr⟩
  rename_i memo hmemo
  split at h
  · cases h
    exact ⟨fun _ _ hk => .inl hk, fun _ _ hr => by cases hr⟩
  · rename_i expiresAt hexpires
    cases h
    refine ⟨fun k c hk => ?_, fun q c hr => ?_⟩
    · rw [Table.get_put] at hk
      split at hk
      · rename_i hkm
        cases hk
        exact .inr ⟨hkm.symm, _, rfl⟩
      · left
        rcases @get_makeRoom k (evictExpired issuedAt map) with hroom | hroom
        · rw [hroom, get_evictExpired] at hk
          exact (Option.filter_eq_some_iff.mp hk).1
        · cases hroom.symm.trans hk
    · cases hr
      exact ⟨memo, expiresAt, rfl, rfl⟩

theorem MemoryChallengeStore.getValid_found {r : Paid PaymentChallenge}
    (h : getValid memo now map = (map', r)) :
    (∀ k c, map'.get k = some c → map.get k = some c) ∧
      ∀ c, r = .ok c → map.get memo = some c ∧ now ≤ c.expiresAt := by
  have hevict : ∀ k c, (evictExpired now map).get k = some c →
      map.get k = some c ∧ now ≤ c.expiresAt := by
    intro k c hk
    rw [get_evictExpired] at hk
    obtain ⟨hget, hle⟩ := Option.filter_eq_some_iff.mp hk
    exact ⟨hget, of_decide_eq_true hle⟩
  unfold getValid at h
  dsimp only at h
  split at h
  · cases h
    exact ⟨fun k c hk => (hevict k c hk).1, fun c hr => by cases hr⟩
  · rename_i challenge hget
    split at h
    · cases h
      refine ⟨fun k c hk => ?_, fun c hr => by cases hr⟩
      rw [Table.get_deleteWhere] at hk
      exact (hevict k c (Option.filter_eq_some_iff.mp hk).1).1
    · cases h
      refine ⟨fun k c hk => (hevict k c hk).1, fun c hr => ?_⟩
      cases hr
      exact hevict memo challenge hget

def MemoryChallengeStore.lawful : memoryChallenges.Lawful where
  found := Table.get
  empty := fun _ => rfl
  reorder := fun h k => Table.get_of_perm h k
  issue := issue_found
  getValid := getValid_found

end MemoryChallenges

section PgChallenges

open PgChallengeStore

variable {memo k : Text} {now issuedAt : Int64} {c : PaymentChallenge} {rows rows' : Rows}
  {row : ChallengeRow} {limit : ℕ} {bytes : Option (Bytes 16)} {cfg : X402ResourceConfig}
  {resource : ResourceInfo} {inputDigest : Text}

theorem PgChallengeStore.get_of_purgeExpired (h : (purgeExpired now limit rows).get k = some row) :
    rows.get k = some row := by
  rw [purgeExpired, Table.get_deleteWhere] at h
  exact (Option.filter_eq_some_iff.mp h).1

@[simp] theorem PgChallengeStore.challenge_newRow : (newRow c).challenge = c := by
  simp only [ChallengeRow.challenge, newRow, UInt64.toUInt64_toInt64]

theorem PgChallengeStore.issue_cases {r : Paid (PaymentRequirements × PaymentChallenge)}
    (h : issue bytes cfg resource inputDigest issuedAt rows = (rows', r)) :
    rows' = rows ∧ (∃ e, r = .error e) ∨
      ∃ memo expiresAt, checkedAddI64 issuedAt cfg.maxTimeoutSeconds.toInt64 = some expiresAt ∧
        checkRow (newRow (newChallenge cfg resource inputDigest memo issuedAt expiresAt)) = true ∧
        rows.get memo = none ∧
        rows' = purgeExpired issuedAt purgeLimit
          (rows.put memo (newRow (newChallenge cfg resource inputDigest memo issuedAt expiresAt))) ∧
        r = .ok (newRequirements cfg memo,
          newChallenge cfg resource inputDigest memo issuedAt expiresAt) := by
  unfold issue at h
  split at h
  · cases h
    exact .inl ⟨rfl, _, rfl⟩
  rename_i memo hmemo
  split at h
  · cases h
    exact .inl ⟨rfl, _, rfl⟩
  rename_i expiresAt hexpires
  split at h
  · cases h
    exact .inl ⟨rfl, _, rfl⟩
  · cases h
    exact .inl ⟨rfl, _, rfl⟩
  dsimp only at h
  split at h
  · rename_i hchecked
    cases h
    obtain ⟨hrow, hfree⟩ := Bool.and_eq_true_iff.mp hchecked
    exact .inr ⟨memo, expiresAt, hexpires, hrow, Option.isNone_iff_eq_none.mp hfree, rfl, rfl⟩
  · cases h
    exact .inl ⟨rfl, _, rfl⟩

theorem PgChallengeStore.issue_found {r : Paid (PaymentRequirements × PaymentChallenge)}
    (h : issue bytes cfg resource inputDigest issuedAt rows = (rows', r)) :
    (∀ k row, rows'.get k = some row →
        rows.get k = some row ∨ row.challenge.memo = k ∧ ∃ q, r = .ok (q, row.challenge)) ∧
      ∀ q c, r = .ok (q, c) → ∃ memo expiresAt, q = newRequirements cfg memo ∧
        c = newChallenge cfg resource inputDigest memo issuedAt expiresAt := by
  rcases issue_cases h with ⟨rfl, e, rfl⟩ | ⟨memo, expiresAt, -, -, -, rfl, rfl⟩
  · exact ⟨fun _ _ hk => .inl hk, fun _ _ hr => by cases hr⟩
  · refine ⟨fun k row hk => ?_, fun q c hr => ?_⟩
    · have hput := get_of_purgeExpired hk
      rw [Table.get_put] at hput
      split at hput
      · rename_i hkm
        cases hput
        rw [challenge_newRow]
        exact .inr ⟨hkm.symm, _, rfl⟩
      · exact .inl hput
    · cases hr
      exact ⟨memo, expiresAt, rfl, rfl⟩

theorem PgChallengeStore.getValid_found {r : Paid PaymentChallenge}
    (h : getValid memo now rows = (rows', r)) :
    (∀ k row, rows'.get k = some row → rows.get k = some row) ∧
      ∀ c, r = .ok c → ∃ row, rows.get memo = some row ∧ row.challenge = c ∧ now ≤ c.expiresAt := by
  unfold getValid at h
  split at h
  · cases h
    exact ⟨fun _ _ hk => hk, fun _ hr => by cases hr⟩
  split at h
  · cases h
    exact ⟨fun _ _ hk => hk, fun _ hr => by cases hr⟩
  rename_i row hget
  split at h
  · cases h
    refine ⟨fun k row hk => ?_, fun _ hr => by cases hr⟩
    rw [Table.get_deleteWhere] at hk
    exact (Option.filter_eq_some_iff.mp hk).1
  · rename_i hle
    cases h
    refine ⟨fun _ _ hk => hk, fun c hr => ?_⟩
    cases hr
    exact ⟨row, hget, rfl, Int64.not_lt.mp hle⟩

def PgChallengeStore.lawful : pgChallenges.Lawful where
  found := fun rows k => (Table.get rows k).map ChallengeRow.challenge
  empty := fun _ => rfl
  reorder := fun h k => congrArg (Option.map ChallengeRow.challenge) (Table.get_of_perm h k)
  issue := fun h => by
    obtain ⟨hfound, hissued⟩ := issue_found h
    refine ⟨fun k c hc => ?_, hissued⟩
    obtain ⟨row, hrow, rfl⟩ := Option.map_eq_some_iff.mp hc
    rcases hfound k row hrow with hold | hnew
    · exact .inl (congrArg (Option.map ChallengeRow.challenge) hold)
    · exact .inr hnew
  getValid := fun h => by
    obtain ⟨hkept, hfound⟩ := getValid_found h
    refine ⟨fun k c hc => ?_, fun c hr => ?_⟩
    · obtain ⟨row, hrow, rfl⟩ := Option.map_eq_some_iff.mp hc
      exact congrArg (Option.map ChallengeRow.challenge) (hkept k row hrow)
    · obtain ⟨row, hrow, rfl, hle⟩ := hfound c hr
      exact ⟨congrArg (Option.map ChallengeRow.challenge) hrow, hle⟩

end PgChallenges

end AgentBond.Payments
