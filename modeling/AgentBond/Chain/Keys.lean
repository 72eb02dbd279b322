import AgentBond.Chain.Progress
import AgentBond.Chain.Script
import AgentBond.Protocol.Keys

/-! # Execution keys along runs

Whatever is added and revoked, and in whatever order, a provider account holds a
finite set of keys: those that were added and not revoked since.
-/

namespace AgentBond

open Foundation Protocol ProviderAccount

section Keys

variable {P : Platform} {ctx : Ctx} {L L' : Ledger} {a k : Pubkey} {p : ProviderAccount}
  {action : Action} {x : Transition Ledger Action} {tr : List (Transition Ledger Action)}
  {ev : ProtocolEvent} {data : List UInt8}

/-- The execution keys in a record. -/
def Record.keys : Record → Finset Pubkey
  | .provider p => p.keySet
  | _ => ∅

/-- The execution keys of the provider account at an address. -/
def keysAt (P : Platform) (L : Ledger) (a : Pubkey) : Finset Pubkey :=
  (L.recordAt P.programId a).elim ∅ Record.keys

/-- The transition carries the instruction out on the provider account at the address. -/
def ChangesKeys (ix : Instruction) (a : Pubkey) (x : Transition Ledger Action) : Prop :=
  ∃ ctx data m, x.label = .instruction ctx data ∧ Instruction.parse data = .ok ix ∧
    ctx.accounts[1]? = some m ∧ m.key = a

/-- An instruction on the provider account, signed by the authority. -/
structure KeyCall (ctx : Ctx) (a authority : Pubkey) : Prop where
  accounts : ∃ m n rest, ctx.accounts = m :: n :: rest ∧ m.key = authority ∧ m.isSigner = true ∧
    n.key = a ∧ n.isWritable = true

/-- A provider is active and keeps a set of keys in its slots. -/
def Record.Keyed (r : Record) : Prop :=
  ∀ p, r = .provider p → p.status = providerStatusActive ∧ p.KeysPacked

def Keyed (P : Platform) (L : Ledger) : Prop :=
  ∀ a r, L.recordAt P.programId a = some r → r.Keyed

theorem keysAt_of_recordAt {r : Record} (h : L.recordAt P.programId a = some r) :
    keysAt P L a = r.keys := by
  rw [keysAt, h, Option.elim_some]

theorem changesKeys_iff {ix ix' : Instruction} (hlabel : x.label = .instruction ctx data)
    (hparse : Instruction.parse data = .ok ix') :
    ChangesKeys ix a x ↔ ix' = ix ∧ ∃ m, ctx.accounts[1]? = some m ∧ m.key = a := by
  constructor
  · rintro ⟨ctx', data', m, hlabel', hparse', hm, ha⟩
    cases hlabel.symm.trans hlabel'
    exact ⟨Except.ok.inj (hparse.symm.trans hparse'), m, hm, ha⟩
  · rintro ⟨rfl, m, hm, ha⟩
    exact ⟨ctx, data, m, hlabel, hparse, hm, ha⟩

theorem effect_of_addExecutionKey (h : addExecutionKey P ctx L k = .ok (L', ev)) :
    ∃ m p p', ctx.accounts[1]? = some m ∧ k ≠ zeroKey ∧
      L.recordAt P.programId m.key = some (.provider p) ∧ p.addKey k = .ok p' ∧
        L'.recordAt P.programId =
          Function.update (L.recordAt P.programId) m.key (some (.provider p')) := by
  unfold addExecutionKey at h
  split at h
  · rename_i authority m rest hacc
    simp only [bind_eq_ok, requireSigner, requireWritable, requireKeysEq,
      loadValidatedProvider_eq_ok, ensure_eq_ok, exists_const, Except.ok.injEq,
      Prod.mk.injEq] at h
    obtain ⟨-, -, hk, p, ⟨hp, -⟩, -, p', hadd, L₁, hsave, rfl, rfl⟩ := h
    have hsaved := saved_of_saveProvider hsave (Ledger.owner_of_recordAt hp)
    exact ⟨m, p, p', by rw [hacc]; rfl, hk, hp, hadd, congrArg State.records hsaved.abs_eq⟩
  · cases h

theorem effect_of_revokeExecutionKey (h : revokeExecutionKey P ctx L k = .ok (L', ev)) :
    ∃ m p p', ctx.accounts[1]? = some m ∧ L.recordAt P.programId m.key = some (.provider p) ∧
      p.revokeKey k = .ok p' ∧ L'.recordAt P.programId =
        Function.update (L.recordAt P.programId) m.key (some (.provider p')) := by
  unfold revokeExecutionKey at h
  split at h
  · rename_i authority m rest hacc
    simp only [bind_eq_ok, requireSigner, requireWritable, requireKeysEq,
      loadValidatedProvider_eq_ok, ensure_eq_ok, exists_const, Except.ok.injEq,
      Prod.mk.injEq] at h
    obtain ⟨-, -, p, ⟨hp, -⟩, -, p', hrevoke, L₁, hsave, rfl, rfl⟩ := h
    have hsaved := saved_of_saveProvider hsave (Ledger.owner_of_recordAt hp)
    exact ⟨m, p, p', by rw [hacc]; rfl, hp, hrevoke, congrArg State.records hsaved.abs_eq⟩
  · cases h

/-- What a transition does to the keys of a provider, which stay a set. -/
structure KeysStep (P : Platform) (a : Pubkey) (x : Transition Ledger Action) : Prop where
  keyed : ∀ r, x.target.recordAt P.programId a = some r → r.Keyed
  mem_iff : ∀ k, k ∈ keysAt P x.target a ↔ ChangesKeys (.addExecutionKey k) a x ∨
    k ∈ keysAt P x.source a ∧ ¬ ChangesKeys (.revokeExecutionKey k) a x

theorem KeysStep.of_eq (hs : Keyed P x.source)
    (h : x.target.recordAt P.programId a = x.source.recordAt P.programId a)
    (hadd : ∀ k, ¬ ChangesKeys (.addExecutionKey k) a x)
    (hrevoke : ∀ k, ¬ ChangesKeys (.revokeExecutionKey k) a x) : KeysStep P a x where
  keyed := fun r hr => hs a r (h ▸ hr)
  mem_iff := fun k => by
    rw [keysAt, keysAt, h]
    exact ⟨fun hk => Or.inr ⟨hk, hrevoke k⟩, fun hk => (hk.resolve_left (hadd k)).1⟩

theorem keys_of_evolves {now : Int64} {ix : Instruction} {o o' : Option Record}
    (h : Evolves now ix o o') (hadd : ∀ k, ix ≠ .addExecutionKey k)
    (hrevoke : ∀ k, ix ≠ .revokeExecutionKey k) :
    (∀ r, o' = some r → r.Keyed) ∧ o'.elim ∅ Record.keys = o.elim ∅ Record.keys := by
  cases h with
  | providerRegistered =>
    refine ⟨?_, rfl⟩
    rintro r ⟨⟩ p ⟨⟩
    exact ⟨rfl, keysPacked_registered _ _⟩
  | keyAdded => exact absurd rfl (hadd _)
  | keyRevoked => exact absurd rfl (hrevoke _)
  | _ => exact ⟨by rintro r ⟨⟩ p ⟨⟩, rfl⟩

theorem KeysStep.of_other {ix : Instruction} (hs : Keyed P x.source)
    (hlabel : x.label = .instruction ctx data) (hparse : Instruction.parse data = .ok ix)
    (h : Evolved ctx.now ix a (abs P x.source) (abs P x.target))
    (hadd : ∀ k, ix ≠ .addExecutionKey k) (hrevoke : ∀ k, ix ≠ .revokeExecutionKey k) :
    KeysStep P a x := by
  have hadd' : ∀ k, ¬ ChangesKeys (.addExecutionKey k) a x := fun k hk =>
    hadd k ((changesKeys_iff hlabel hparse).mp hk).1
  have hrevoke' : ∀ k, ¬ ChangesKeys (.revokeExecutionKey k) a x := fun k hk =>
    hrevoke k ((changesKeys_iff hlabel hparse).mp hk).1
  rcases h with hsame | hevolves
  · exact .of_eq hs hsame hadd' hrevoke'
  · obtain ⟨hkeyed, hkeys⟩ := keys_of_evolves hevolves hadd hrevoke
    refine ⟨hkeyed, fun k => ?_⟩
    have hmem : k ∈ keysAt P x.target a ↔ k ∈ keysAt P x.source a := by
      rw [keysAt, keysAt]
      exact hkeys ▸ Iff.rfl
    rw [hmem]
    exact ⟨fun hk => Or.inr ⟨hk, hrevoke' k⟩, fun hk => (hk.resolve_left (hadd' k)).1⟩

theorem KeysStep.of_update {m : AccountMeta} {p p' : ProviderAccount} (hs : Keyed P x.source)
    (hrecords : x.target.recordAt P.programId =
      Function.update (x.source.recordAt P.programId) m.key (some (.provider p')))
    (hp : x.source.recordAt P.programId m.key = some (.provider p))
    (hself : a = m.key → Record.Keyed (.provider p') ∧ ∀ k, k ∈ p'.keySet ↔
      ChangesKeys (.addExecutionKey k) a x ∨
        k ∈ p.keySet ∧ ¬ ChangesKeys (.revokeExecutionKey k) a x)
    (hother : a ≠ m.key → (∀ k, ¬ ChangesKeys (.addExecutionKey k) a x) ∧
      ∀ k, ¬ ChangesKeys (.revokeExecutionKey k) a x) : KeysStep P a x := by
  by_cases ha : a = m.key
  · obtain ⟨hkeyed, hmem⟩ := hself ha
    subst ha
    have hp' : x.target.recordAt P.programId m.key = some (.provider p') := by
      rw [hrecords, Function.update_self]
    refine ⟨fun r hr => ?_, fun k => ?_⟩
    · exact Option.some.inj (hp'.symm.trans hr) ▸ hkeyed
    · rw [keysAt_of_recordAt hp', keysAt_of_recordAt hp]
      exact hmem k
  · obtain ⟨hadd, hrevoke⟩ := hother ha
    exact .of_eq hs (by rw [hrecords, Function.update_of_ne ha]) hadd hrevoke

theorem ChainStep.keys (hs : Keyed P x.source) (h : ChainStep P x.source x.label x.target)
    (a : Pubkey) : KeysStep P a x := by
  obtain ⟨L, action, L'⟩ := x
  cases h with
  | thirdParty others =>
    refine .of_eq hs (congrFun others.recordAt_eq a) ?_ ?_
    · rintro k ⟨ctx, data, m, hlabel, -⟩
      cases hlabel
    · rintro k ⟨ctx, data, m, hlabel, -⟩
      cases hlabel
  | @instruction ctx data _ _ ev signers ok =>
    obtain ⟨ix, hparse, hstep, -⟩ := refined_of_process signers ok
    rw [process_of_parse hparse] at ok
    cases ix with
    | addExecutionKey k₀ =>
      obtain ⟨m, p, p', hm, hk, hp, hadd, hrecords⟩ := effect_of_addExecutionKey ok
      refine .of_update hs hrecords hp ?_ ?_
      · rintro rfl
        obtain ⟨hstatus, hpacked⟩ := hs _ _ hp p rfl
        obtain ⟨hpacked', hkeys, hstatus'⟩ := keySet_of_addKey hpacked hk hadd
        refine ⟨?_, fun k => ?_⟩
        · rintro _ ⟨⟩
          exact ⟨hstatus'.trans hstatus, hpacked'⟩
        · rw [changesKeys_iff rfl hparse, changesKeys_iff rfl hparse, hkeys, Finset.mem_insert]
          simp [hm, eq_comm]
      · intro ha
        refine ⟨fun k hk => ?_, fun k hk => ?_⟩
        · obtain ⟨-, m', hm', rfl⟩ := (changesKeys_iff rfl hparse).mp hk
          exact ha (by rw [Option.some.inj (hm.symm.trans hm')])
        · cases ((changesKeys_iff rfl hparse).mp hk).1
    | revokeExecutionKey k₀ =>
      obtain ⟨m, p, p', hm, hp, hrevoke, hrecords⟩ := effect_of_revokeExecutionKey ok
      refine .of_update hs hrecords hp ?_ ?_
      · rintro rfl
        obtain ⟨hstatus, hpacked⟩ := hs _ _ hp p rfl
        obtain ⟨hpacked', hkeys, hstatus'⟩ := keySet_of_revokeKey hpacked hrevoke
        refine ⟨?_, fun k => ?_⟩
        · rintro _ ⟨⟩
          exact ⟨hstatus'.trans hstatus, hpacked'⟩
        · rw [changesKeys_iff rfl hparse, changesKeys_iff rfl hparse, hkeys, Finset.mem_erase]
          simp [hm, eq_comm, and_comm]
      · intro ha
        refine ⟨fun k hk => ?_, fun k hk => ?_⟩
        · cases ((changesKeys_iff rfl hparse).mp hk).1
        · obtain ⟨-, m', hm', rfl⟩ := (changesKeys_iff rfl hparse).mp hk
          exact ha (by rw [Option.some.inj (hm.symm.trans hm')])
    | _ => exact .of_other hs rfl hparse (hstep.evolved a) (fun _ => nofun) fun _ => nofun

section Calls

variable {k : Pubkey}

/-- The authority adds a key exactly when it is nonzero, new and there is room for it. -/
theorem addExecutionKey_succeeds_iff (h : Sound P L) (hk : Keyed P L)
    (hp : L.recordAt P.programId a = some (.provider p)) (hcall : KeyCall ctx a p.authority) :
    (∃ L' ev, addExecutionKey P ctx L k = .ok (L', ev)) ↔
      k ≠ zeroKey ∧ k ∉ p.keySet ∧ p.keySet.card < maxExecutionKeys := by
  obtain ⟨hactive, hpacked⟩ := hk a _ hp p rfl
  obtain ⟨m, n, rest, hacc, hm, hsigner, rfl, hwritable⟩ := hcall.accounts
  rw [← addKey_succeeds_iff hpacked hactive]
  simp only [addExecutionKey, hacc, bind_eq_ok, requireSigner, requireWritable, requireKeysEq,
    loadValidatedProvider_eq_ok, ensure_eq_ok, exists_const, Except.ok.injEq, Prod.mk.injEq]
  constructor
  · rintro ⟨L', ev, -, -, hne, p', ⟨hp', -⟩, -, p'', hadd, -⟩
    obtain rfl : p = p' := by simpa using hp.symm.trans hp'
    exact ⟨hne, p'', hadd⟩
  · rintro ⟨hne, p', hadd⟩
    obtain ⟨hpacked', -, hstatus⟩ := keySet_of_addKey hpacked hne hadd
    have hle := hpacked'.le
    rw [List.Vector.toList_length] at hle
    obtain ⟨L', hL'⟩ := saveProvider_succeeds hwritable (len_of_provider hp)
      (hstatus.trans hactive) hle
    exact ⟨L', _, hsigner, hwritable, hne, p, ⟨hp, h.inv.found.address hp⟩, hm, p', hadd, L', hL',
      rfl, rfl⟩

/-- The authority revokes a key exactly when the provider has it. -/
theorem revokeExecutionKey_succeeds_iff (h : Sound P L) (hk : Keyed P L)
    (hp : L.recordAt P.programId a = some (.provider p)) (hcall : KeyCall ctx a p.authority) :
    (∃ L' ev, revokeExecutionKey P ctx L k = .ok (L', ev)) ↔ k ∈ p.keySet := by
  obtain ⟨hactive, hpacked⟩ := hk a _ hp p rfl
  obtain ⟨m, n, rest, hacc, hm, hsigner, rfl, hwritable⟩ := hcall.accounts
  rw [← revokeKey_succeeds_iff]
  simp only [revokeExecutionKey, hacc, bind_eq_ok, requireSigner, requireWritable, requireKeysEq,
    loadValidatedProvider_eq_ok, ensure_eq_ok, exists_const, Except.ok.injEq, Prod.mk.injEq]
  constructor
  · rintro ⟨L', ev, -, -, p', ⟨hp', -⟩, -, p'', hrevoke, -⟩
    obtain rfl : p = p' := by simpa using hp.symm.trans hp'
    exact ⟨p'', hrevoke⟩
  · rintro ⟨p', hrevoke⟩
    obtain ⟨hpacked', -, hstatus⟩ := keySet_of_revokeKey hpacked hrevoke
    have hle := hpacked'.le
    rw [List.Vector.toList_length] at hle
    obtain ⟨L', hL'⟩ := saveProvider_succeeds hwritable (len_of_provider hp)
      (hstatus.trans hactive) hle
    exact ⟨L', _, hsigner, hwritable, p, ⟨hp, h.inv.found.address hp⟩, hm, p', hrevoke, L', hL',
      rfl, rfl⟩

theorem actor_of_submitReceipt {r : AgentBondWorkReceiptV1} {m : AccountMeta}
    (hp : L.recordAt P.programId a = some (.provider p)) (hm : ctx.accounts[1]? = some m)
    (ha : m.key = a) (h : submitReceipt P ctx L r = .ok (L', ev)) : ev.actor ∈ p.keySet := by
  unfold submitReceipt at h
  split at h
  · rename_i configAccount providerAccount jobAccount instructionsSysvar rest hacc
    rw [hacc, List.getElem?_cons_succ, List.getElem?_cons_zero, Option.some.injEq] at hm
    subst hm ha
    simp only [bind_eq_ok, loadValidatedProvider_eq_ok, ensure_eq_ok, exists_const,
      Except.ok.injEq, Prod.mk.injEq] at h
    obtain ⟨_, -, _, -, p', ⟨hp', -⟩, -, _, -, -, -, -, -, -, _, -, _, -, signerKey, -, hmem, _, -,
      _, -, _, -, -, rfl⟩ := h
    obtain rfl : p = p' := by simpa using hp.symm.trans hp'
    exact containsExecutionKey_iff.mp hmem
  · cases h

end Calls

theorem Keyed.of_genesis (h : Genesis P L) : Keyed P L := fun a r hr => by
  rw [h.recordAt_eq] at hr
  cases hr

theorem Keyed.step (h : Keyed P L) (hs : ChainStep P L action L') : Keyed P L' := fun a r hr =>
  (hs.keys (x := ⟨L, action, L'⟩) h a).keyed r hr

theorem Keyed.of_run (hL : Genesis P L) (h : Run (ChainStep P) L tr L') : Keyed P L' :=
  h.invariant (fun _ _ _ => Keyed.step) (.of_genesis hL)

theorem Keyed.of_reached (h : Reached P L) : Keyed P L :=
  h.invariant (fun _ => Keyed.of_genesis) fun _ _ _ => Keyed.step

/-- The keys of a provider are those that were added and not revoked since. -/
theorem mem_keysAt_iff (hL : Genesis P L) (h : Run (ChainStep P) L tr L') :
    k ∈ keysAt P L' a ↔ Since (ChangesKeys (.addExecutionKey k) a)
      (ChangesKeys (.revokeExecutionKey k) a) tr := by
  have hnone : k ∉ keysAt P L a := by
    rw [keysAt, hL.recordAt_eq]
    exact Finset.notMem_empty k
  exact h.since (I := Keyed P) (Q := fun M => k ∈ keysAt P M a) (fun _ _ _ => Keyed.step)
    (fun x hx hstep => (hstep.keys hx a).mem_iff k) (.of_genesis hL) hnone

/-- Along every run the slots of a provider account hold a finite set of keys: adding inserts a
key, revoking erases it, the lookup is membership, and the members are the keys added and not
revoked since. -/
theorem execution_keys_form_a_set (hL : Genesis P L) (h : Run (ChainStep P) L tr L')
    (hp : L'.recordAt P.programId a = some (.provider p)) :
    p.executionKeyCount.toNat ≤ maxExecutionKeys ∧ p.KeysPacked ∧
      (∀ ctx data k, KeyCall ctx a p.authority →
        Instruction.parse data = .ok (.addExecutionKey k) →
          ((∃ L'' ev, process P ctx L' data = .ok (L'', ev)) ↔
            k ≠ zeroKey ∧ k ∉ p.keySet ∧ p.keySet.card < maxExecutionKeys) ∧
          ∀ L'' ev, process P ctx L' data = .ok (L'', ev) →
            keysAt P L'' a = insert k p.keySet) ∧
      (∀ ctx data k, KeyCall ctx a p.authority →
        Instruction.parse data = .ok (.revokeExecutionKey k) →
          ((∃ L'' ev, process P ctx L' data = .ok (L'', ev)) ↔ k ∈ p.keySet) ∧
          ∀ L'' ev, process P ctx L' data = .ok (L'', ev) → keysAt P L'' a = p.keySet.erase k) ∧
      (∀ k, p.containsExecutionKey k = true ↔ k ∈ p.keySet) ∧
      (∀ k, k ∈ p.keySet ↔ Since (ChangesKeys (.addExecutionKey k) a)
        (ChangesKeys (.revokeExecutionKey k) a) tr) ∧
      ∀ ctx data r m L'' ev, Instruction.parse data = .ok (.submitReceipt r) →
        ctx.accounts[1]? = some m → m.key = a → process P ctx L' data = .ok (L'', ev) →
          ev.actor ∈ p.keySet := by
  have hsound := Sound.of_reached (.of_run hL h)
  have hkeyed := Keyed.of_run hL h
  obtain ⟨-, hpacked⟩ := hkeyed a _ hp p rfl
  have hle := hpacked.le
  rw [List.Vector.toList_length] at hle
  refine ⟨hle, hpacked, ?_, ?_, fun k => containsExecutionKey_iff, fun k => ?_, ?_⟩
  · intro ctx data k hcall hparse
    simp only [process_of_parse hparse]
    refine ⟨addExecutionKey_succeeds_iff hsound hkeyed hp hcall, fun L'' ev hok => ?_⟩
    obtain ⟨m, p₁, p', hm, hk, hp₁, hadd, hrecords⟩ := effect_of_addExecutionKey hok
    obtain ⟨_, n, _, hacc, -, -, rfl, -⟩ := hcall.accounts
    rw [hacc, List.getElem?_cons_succ, List.getElem?_cons_zero, Option.some.injEq] at hm
    subst hm
    obtain rfl : p = p₁ := by simpa using hp.symm.trans hp₁
    rw [keysAt, hrecords, Function.update_self]
    exact (keySet_of_addKey hpacked hk hadd).2.1
  · intro ctx data k hcall hparse
    simp only [process_of_parse hparse]
    refine ⟨revokeExecutionKey_succeeds_iff hsound hkeyed hp hcall, fun L'' ev hok => ?_⟩
    obtain ⟨m, p₁, p', hm, hp₁, hrevoke, hrecords⟩ := effect_of_revokeExecutionKey hok
    obtain ⟨_, n, _, hacc, -, -, rfl, -⟩ := hcall.accounts
    rw [hacc, List.getElem?_cons_succ, List.getElem?_cons_zero, Option.some.injEq] at hm
    subst hm
    obtain rfl : p = p₁ := by simpa using hp.symm.trans hp₁
    rw [keysAt, hrecords, Function.update_self]
    exact (keySet_of_revokeKey hpacked hrevoke).2.1
  · rw [← mem_keysAt_iff hL h, keysAt_of_recordAt hp]
    rfl
  · intro ctx data r m L'' ev hparse hm ha hok
    rw [process_of_parse hparse] at hok
    exact actor_of_submitReceipt hp hm ha hok

end Keys

namespace Sample

def registeredProvider : ProviderAccount :=
  { ProviderAccount.registered 255 provider with
    executionKeyCount := 1, executionKeys := ⟨[executionKey, zeroKey, zeroKey, zeroKey], rfl⟩ }

/-- An instruction by which the provider changes its keys. -/
def keyCall (now : Int64) (instruction : Instruction) : Ctx × List UInt8 :=
  call now instruction [signer provider, writable providerKey]

theorem keyCall_call (now : Int64) (instruction : Instruction) :
    KeyCall (keyCall now instruction).1 providerKey provider :=
  ⟨_, _, [], rfl, rfl, rfl, rfl, rfl⟩

/-- The provider adds two keys to the one it has, which it then gives up. -/
def rotation : Script :=
  [keyCall 5 (.addExecutionKey (key 80)), keyCall 6 (.addExecutionKey (key 81)),
    keyCall 7 (.revokeExecutionKey executionKey)]

def rotatedLedger : Ledger := play platform ledger (setup ++ rotation)

/-- The last key has taken the place of the one that was given up. -/
def rotatedProvider : ProviderAccount :=
  { ProviderAccount.registered 255 provider with
    executionKeyCount := 2, executionKeys := ⟨[key 81, key 80, zeroKey, zeroKey], rfl⟩ }

theorem run_rotation : Run (ChainStep platform) ledger
    (transitions platform ledger (setup ++ rotation)) rotatedLedger := by
  unfold rotatedLedger
  exact run_of_script (by decide +kernel)

theorem provider_at_rotatedLedger : rotatedLedger.recordAt platform.programId providerKey =
    some (.provider rotatedProvider) := by
  decide +kernel

/-- Of three keys that were added one was revoked: the provider has the other two, can add the
revoked one again and cannot revoke it twice. -/
theorem execution_keys_form_a_set_sample :
    Since (ChangesKeys (.addExecutionKey (key 81)) providerKey)
        (ChangesKeys (.revokeExecutionKey (key 81)) providerKey)
        (transitions platform ledger (setup ++ rotation)) ∧
      ¬ Since (ChangesKeys (.addExecutionKey executionKey) providerKey)
        (ChangesKeys (.revokeExecutionKey executionKey) providerKey)
        (transitions platform ledger (setup ++ rotation)) ∧
      (∃ L ev, process platform (keyCall 8 (.addExecutionKey executionKey)).1 rotatedLedger
          (keyCall 8 (.addExecutionKey executionKey)).2 = .ok (L, ev) ∧
        keysAt platform L providerKey = insert executionKey rotatedProvider.keySet) ∧
      ¬ ∃ L ev, process platform (keyCall 8 (.revokeExecutionKey executionKey)).1 rotatedLedger
          (keyCall 8 (.revokeExecutionKey executionKey)).2 = .ok (L, ev) := by
  obtain ⟨-, -, hadd, hrevoke, -, hsince, -⟩ :=
    execution_keys_form_a_set genesis run_rotation provider_at_rotatedLedger
  have hkept : key 81 ∈ rotatedProvider.keySet := by decide +kernel
  have hgone : executionKey ∉ rotatedProvider.keySet := by decide +kernel
  obtain ⟨hadds, hadded⟩ := hadd _ (keyCall 8 (.addExecutionKey executionKey)).2 executionKey
    (keyCall_call 8 _) (by decide)
  obtain ⟨hrevokes, -⟩ := hrevoke _ (keyCall 8 (.revokeExecutionKey executionKey)).2 executionKey
    (keyCall_call 8 _) (by decide)
  obtain ⟨L, ev, hok⟩ := hadds.mpr ⟨by decide, hgone, by decide +kernel⟩
  exact ⟨(hsince _).mp hkept, fun h => hgone ((hsince _).mpr h), ⟨L, ev, hok, hadded L ev hok⟩,
    fun h => hgone (hrevokes.mp h)⟩

end Sample

end AgentBond
