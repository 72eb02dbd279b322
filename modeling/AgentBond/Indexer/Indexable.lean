import AgentBond.Chain.Script
import AgentBond.Indexer.Decode
import AgentBond.Indexer.Versions

/-! # Accounts that can be indexed

What the program lets into its accounts and what the tables take differ: the
program never bounds a deadline from above, nor the decimals of its mint. An
account whose deadlines are dates of the calendar can be finalized.
-/

namespace AgentBond.Indexer

open Foundation

/-- The time is a date the host and the tables know. -/
def Datable (time : Int64) : Prop :=
  -210866803200 ≤ time.toInt ∧ time.toInt ≤ 8210266876799

instance (time : Int64) : Decidable (Datable time) := inferInstanceAs (Decidable (_ ∧ _))

/-- The tables take the record. -/
def Indexable : Record → Prop
  | .config c => c.mintDecimals.toNat ≤ maxMintDecimals
  | .job j => (Datable j.fundDeadline ∧ Datable j.acceptDeadline ∧ Datable j.workDeadline ∧
      Datable j.autoSettleDeadline) ∧ j.mintDecimals.toNat ≤ maxMintDecimals
  | .challenge c => Datable c.deadline
  | .provider _ | .bond _ => True

theorem datable_iff {time : Int64} :
    Datable time ↔ ∃ t, timestampOpt time = some t ∧ Storable t := by
  simp only [timestampOpt, Option.ite_none_right_eq_some, Option.some.injEq, Storable, Datable]
  constructor
  · rintro ⟨hl, hu⟩
    exact ⟨time, ⟨⟨by omega, hu⟩, rfl⟩, hl, by omega⟩
  · rintro ⟨_, ⟨⟨-, hu⟩, rfl⟩, hl, -⟩
    exact ⟨hl, hu⟩

theorem jobStateName_mem (s : JobState) : jobStateName s ∈ jobStates := by
  cases s <;> decide

/-- What a record may hold when it is decoded from an account. -/
def Decodable : Record → Prop
  | .config c => 0 < c.challengeDurationSeconds
  | .provider p => p.executionKeyCount.toNat ≤ maxExecutionKeys
  | .challenge c => c.bondAmount = 0
  | .bond _ | .job _ => True

theorem toNat_of_pos {n : Int64} (h : 0 < n) : n.toUInt64.toNat < 2 ^ 63 := by
  have hle : (0 : Int64) ≤ n := Int64.le_of_lt h
  have hlt := n.toInt_lt
  rw [Int64.toNat_toUInt64_of_le hle, Int64.toNatClampNeg]
  omega

theorem checkPayload_iff {r : Record} (h : Decodable r) :
    checkPayload (recordPayload r) = .ok () ↔ Indexable r := by
  cases r with
  | config c =>
    simp only [recordPayload, configPayload, checkPayload, bind_eq_ok, discard_eq_ok,
      u64ToI64_eq_ok, ensure_eq_ok, exists_const, Indexable]
    exact and_iff_right ⟨_, toNat_of_pos h, rfl⟩
  | provider p =>
    simp only [recordPayload, providerPayload, checkPayload, bind_eq_ok, ensure_eq_ok,
      exists_const, Indexable, iff_true]
    refine ⟨?_, h⟩
    split <;> decide
  | bond b => exact iff_of_true rfl trivial
  | job j =>
    simp only [recordPayload, jobPayload, checkPayload, bind_eq_ok, ensure_eq_ok, exists_const,
      ts_eq_ok, Indexable, datable_iff]
    constructor
    · rintro ⟨t₁, h₁, t₂, h₂, t₃, h₃, t₄, h₄, ⟨s₁, s₂, s₃, s₄⟩, -, hd⟩
      exact ⟨⟨⟨t₁, h₁, s₁⟩, ⟨t₂, h₂, s₂⟩, ⟨t₃, h₃, s₃⟩, ⟨t₄, h₄, s₄⟩⟩, hd⟩
    · rintro ⟨⟨⟨t₁, h₁, s₁⟩, ⟨t₂, h₂, s₂⟩, ⟨t₃, h₃, s₃⟩, ⟨t₄, h₄, s₄⟩⟩, hd⟩
      exact ⟨t₁, h₁, t₂, h₂, t₃, h₃, t₄, h₄, ⟨s₁, s₂, s₃, s₄⟩, jobStateName_mem _, hd⟩
  | challenge c =>
    simp only [recordPayload, challengePayload, checkPayload, bind_eq_ok, ensure_eq_ok,
      exists_const, ts_eq_ok, Indexable, datable_iff]
    constructor
    · rintro ⟨t, ht, hs, -, -⟩
      exact ⟨t, ht, hs⟩
    · rintro ⟨t, ht, hs⟩
      refine ⟨t, ht, hs, h, ?_⟩
      split <;> decide

/-- Everything but the given projection lets the slot be finalized. -/
structure OtherwiseFinal (d : Db) (p : DecodedProjection) : Prop where
  slot_fits : p.slot.toNat < 2 ^ 63
  known : ∃ row, d.indexerSlots.get p.slot = some row ∧ row.status ≠ .dead ∧
    (row.status ≠ .finalized → assertAncestry d.indexerSlots p.slot = .ok ())
  others : ∀ q ∈ stagedProjections d p.slot, q ≠ p → Admissible q

/-- With everything else in order, a slot is finalized exactly when the staged payload can be
stored. -/
theorem finalizeSlot_succeeds_iff {d : Db} {p : DecodedProjection} (h : OtherwiseFinal d p)
    (hp : p ∈ stagedProjections d p.slot) :
    (∃ d' n, finalizeSlot d p.slot = .ok (d', n)) ↔ checkPayload p.payload = .ok () := by
  simp only [finalizeSlot_eq_ok]
  constructor
  · rintro ⟨d', n, -, -, hall, -⟩
    exact (hall p hp).2
  · intro hc
    refine ⟨_, _, h.slot_fits, h.known, fun q hq => ?_, rfl, rfl⟩
    by_cases hqp : q = p
    · rw [hqp]
      exact ⟨h.slot_fits, hc⟩
    · exact h.others q hq hqp

variable {P : Platform} {L : Ledger} {a : Pubkey} {r : Record}

/-- The update the stream brings of an account. -/
def accountInput (P : Platform) (L : Ledger) (a : Pubkey) (slot writeVersion : UInt64)
    (commitment : Commitment) : AccountDecodeInput :=
  { program := P.programId, address := a, slot, writeVersion, owner := some (L.account a).owner,
    lamports := UInt64.ofNat (L.account a).lamports, data := some (L.account a).data.bytes,
    deleted := false, commitment }

def recordProjection (r : Record) (a : Pubkey) (slot writeVersion : UInt64) : DecodedProjection :=
  { kind := (recordPayload r).kind, address := a, slot, writeVersion, payload := recordPayload r }

theorem decode_of_recordAt (h : L.recordAt P.programId a = some r) :
    Record.decode (L.account a).data.bytes = some r := by
  rwa [Ledger.recordAt, if_pos (Ledger.owner_of_recordAt h)] at h

theorem decodeAccountUpdate_of_record (h : L.recordAt P.programId a = some r)
    (slot writeVersion : UInt64) (commitment : Commitment) :
    (decodeAccountUpdate (accountInput P L a slot writeVersion commitment)).projection =
      some (recordProjection r a slot writeVersion) := by
  have hdecode := decode_of_recordAt h
  have hne : (L.account a).data.bytes ≠ [] := by
    intro hnil
    rw [hnil] at hdecode
    cases hdecode
  have howner : some (L.account a).owner = some P.programId := by rw [Ledger.owner_of_recordAt h]
  simp only [decodeAccountUpdate, accountInput, Bool.false_eq_true, false_or, Option.map_some,
    Option.getD_some, List.isEmpty_iff, hne, if_false, howner, if_true, tryDecodeOwned,
    tryDecodePayload_of_record hdecode]
  rfl

theorem decodable_of_reached (h : Reached P L) (hr : L.recordAt P.programId a = some r) :
    Decodable r := by
  have hdecode := decode_of_recordAt hr
  cases r with
  | config c => exact ((Sound.of_reached h).inv.valid a _ hr).2.1
  | provider p => exact ProviderAccount.count_of_decode (Record.decode_eq_provider.mp hdecode)
  | bond b => trivial
  | job j => trivial
  | challenge c => exact ChallengeAccount.bond_of_decode (Record.decode_eq_challenge.mp hdecode)

/-- An account of the program is always decoded, and with everything else in order its staged
projection lets its slot be finalized exactly when the record is indexable. -/
theorem account_indexable_iff (h : Reached P L) (hr : L.recordAt P.programId a = some r)
    (slot writeVersion : UInt64) (commitment : Commitment) :
    (decodeAccountUpdate (accountInput P L a slot writeVersion commitment)).projection =
        some (recordProjection r a slot writeVersion) ∧
      ∀ d, recordProjection r a slot writeVersion ∈ stagedProjections d slot →
        OtherwiseFinal d (recordProjection r a slot writeVersion) →
          ((∃ d' n, finalizeSlot d slot = .ok (d', n)) ↔ Indexable r) := by
  refine ⟨decodeAccountUpdate_of_record hr slot writeVersion commitment, fun d hp ho => ?_⟩
  exact (finalizeSlot_succeeds_iff ho hp).trans (checkPayload_iff (decodable_of_reached h hr))

namespace Fork

open AgentBond.Sample

/-- A job that is to settle by itself in the year 319,000. -/
def farTerms : CreateJobPayload := { terms with autoSettleDeadline := 10000000000000 }

def create (terms : CreateJobPayload) : Script :=
  [call 10 (.createJob terms)
    [signer buyer, readonly configKey, readonly providerKey, writable jobKey,
      readonly systemProgramId]]

def createdLedger : Ledger := play platform ledger (setup ++ create terms)

def farLedger : Ledger := play platform ledger (setup ++ create farTerms)

theorem reached_createdLedger : Reached platform createdLedger :=
  .of_run genesis (run_of_script (by decide +kernel))

theorem reached_farLedger : Reached platform farLedger :=
  .of_run genesis (run_of_script (by decide +kernel))

def farJob : JobAccount := farTerms.job config 255 buyer provider

/-- The database with the job staged for slot 7. -/
def stagedDb (L : Ledger) : Db :=
  (arrive start [slotUpdate 7 none .processed,
    .account (decodeAccountUpdate (accountInput platform L jobKey 7 1 .processed))]).db

/-- The slot as the first update leaves it. -/
def slotRow : SlotRow := { parentSlot := none, status := .processed, blockTime := none }

theorem views_createdLedger :
    createdLedger.recordAt platform.programId jobKey = some (.job job) ∧
      stagedProjections (stagedDb createdLedger) 7 = [recordProjection (.job job) jobKey 7 1] ∧
      (stagedDb createdLedger).indexerSlots.get 7 = some slotRow ∧
      assertAncestry (stagedDb createdLedger).indexerSlots 7 = .ok () := by
  decide +kernel

theorem views_farLedger :
    farLedger.recordAt platform.programId jobKey = some (.job farJob) ∧
      stagedProjections (stagedDb farLedger) 7 = [recordProjection (.job farJob) jobKey 7 1] ∧
      (stagedDb farLedger).indexerSlots.get 7 = some slotRow ∧
      assertAncestry (stagedDb farLedger).indexerSlots 7 = .ok () := by
  decide +kernel

theorem otherwiseFinal_stagedDb {L : Ledger} {p : DecodedProjection} (hs : p.slot = 7)
    (hstaged : stagedProjections (stagedDb L) 7 = [p])
    (hrow : (stagedDb L).indexerSlots.get 7 = some slotRow)
    (hancestry : assertAncestry (stagedDb L).indexerSlots 7 = .ok ()) :
    OtherwiseFinal (stagedDb L) p where
  slot_fits := by rw [hs]; decide
  known := by
    rw [hs]
    exact ⟨slotRow, hrow, by decide, fun _ => hancestry⟩
  others := by
    intro q hq hne
    rw [hs, hstaged, List.mem_singleton] at hq
    exact absurd hq hne

theorem account_indexable_created :
    ∃ d' n, finalizeSlot (stagedDb createdLedger) 7 = .ok (d', n) := by
  obtain ⟨hjob, hstaged, hrow, hancestry⟩ := views_createdLedger
  have hmem : recordProjection (.job job) jobKey 7 1 ∈
      stagedProjections (stagedDb createdLedger) 7 := by
    rw [hstaged]
    exact List.mem_singleton_self _
  refine ((account_indexable_iff reached_createdLedger hjob 7 1 .processed).2 _ hmem
    (otherwiseFinal_stagedDb rfl hstaged hrow hancestry)).mpr ?_
  simp only [Indexable]
  decide

/-- A job of the program stops the finalization of its slot. -/
theorem finalization_blocked : ¬ ∀ (L : Ledger) (a : Pubkey) (r : Record),
    Reached platform L → L.recordAt platform.programId a = some r →
      ∀ (d : Db) (slot writeVersion : UInt64),
        recordProjection r a slot writeVersion ∈ stagedProjections d slot →
          OtherwiseFinal d (recordProjection r a slot writeVersion) →
            ∃ d' n, finalizeSlot d slot = .ok (d', n) := by
  intro h
  obtain ⟨hjob, hstaged, hrow, hancestry⟩ := views_farLedger
  have hmem : recordProjection (.job farJob) jobKey 7 1 ∈
      stagedProjections (stagedDb farLedger) 7 := by
    rw [hstaged]
    exact List.mem_singleton_self _
  have hfinal := otherwiseFinal_stagedDb rfl hstaged hrow hancestry
  have hok := h _ _ _ reached_farLedger hjob (stagedDb farLedger) 7 1 hmem hfinal
  have hcheck := (finalizeSlot_succeeds_iff hfinal hmem).mp hok
  exact absurd hcheck (by decide +kernel)

end Fork

end AgentBond.Indexer
