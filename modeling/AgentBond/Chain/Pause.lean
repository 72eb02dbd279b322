import AgentBond.Foundation.Lockstep
import AgentBond.Program.Processor

/-! # Ledgers up to the pause flag

Two ledgers are compared with the pause flag of every configuration cleared. What
the program reads of them is the same but for that flag, and what it writes to
them, and calls other programs for, keeps them so.
-/

namespace AgentBond

open Foundation

variable (P : Platform)

def ConfigAccount.unpaused (c : ConfigAccount) : ConfigAccount := { c with paused := false }

theorem ConfigAccount.exists_of_unpaused_eq {c c' : ConfigAccount} (h : c.unpaused = c'.unpaused) :
    ∃ b, c' = { c with paused := b } := by
  refine ⟨c'.paused, ?_⟩
  have hback : { c'.unpaused with paused := c'.paused } = c' := rfl
  rw [← hback, ← h]
  rfl

/-- The account with the pause flag cleared, when it is a configuration of the program. -/
def Account.unpaused (a : Account) : Account :=
  if a.owner = P.programId then
    match ConfigAccount.decode a.data.bytes with
    | .ok c => { a with data := .raw c.unpaused.encode }
    | .error _ => a
  else a

/-- The ledgers differ in the pause flag at most. -/
def UpToPause (L L' : Ledger) : Prop :=
  ∀ k, (L.account k).unpaused P = (L'.account k).unpaused P

/-- What other programs see of the ledger: everything but the data of the program's accounts. -/
structure SeenAlike (L L' : Ledger) : Prop where
  lamports : ∀ k, (L'.account k).lamports = (L.account k).lamports
  owner : ∀ k, (L'.account k).owner = (L.account k).owner
  len : ∀ k, (L'.account k).data.len = (L.account k).data.len
  foreign : ∀ k, (L.account k).owner ≠ P.programId → L'.account k = L.account k

/-- The System program and the token program do not look into accounts of the program. -/
structure Platform.Discreet : Prop where
  createAccount : ∀ {L L' payer account lamports space owner}, SeenAlike P L L' →
    Lockstep (SeenAlike P) (P.createAccount L payer account lamports space owner)
      (P.createAccount L' payer account lamports space owner)
  transferChecked : ∀ {L L' source mint destination authority amount decimals},
    SeenAlike P L L' →
      Lockstep (SeenAlike P) (P.transferChecked L source mint destination authority amount decimals)
        (P.transferChecked L' source mint destination authority amount decimals)
  closeAccount : ∀ {L L' account destination authority}, SeenAlike P L L' →
    Lockstep (SeenAlike P) (P.closeAccount L account destination authority)
      (P.closeAccount L' account destination authority)

variable {P} {L L' : Ledger} {m : AccountMeta}

/-- Accounts up to the pause flag: the same one, or two configurations with different flags. -/
inductive PauseApart (P : Platform) : Account → Account → Prop
  | same (a : Account) : PauseApart P a a
  | configs {a a' : Account} {c c' : ConfigAccount} (owner : a.owner = P.programId)
      (owner' : a'.owner = P.programId) (lamports : a'.lamports = a.lamports)
      (read : ConfigAccount.decode a.data.bytes = .ok c)
      (read' : ConfigAccount.decode a'.data.bytes = .ok c') (flags : c.unpaused = c'.unpaused) :
      PauseApart P a a'

theorem Account.unpaused_of_config {a : Account} {c : ConfigAccount} (ho : a.owner = P.programId)
    (hc : ConfigAccount.decode a.data.bytes = .ok c) :
    a.unpaused P = { a with data := .raw c.unpaused.encode } := by
  simp only [Account.unpaused, ho, if_true, hc]

/-- Only a configuration of the program is looked at up to its flag. -/
theorem Account.unpaused_cases (P : Platform) (a : Account) :
    a.unpaused P = a ∨
      ∃ c, a.owner = P.programId ∧ ConfigAccount.decode a.data.bytes = .ok c := by
  by_cases ho : a.owner = P.programId
  · cases hc : ConfigAccount.decode a.data.bytes with
    | ok c => exact Or.inr ⟨c, ho, rfl⟩
    | error e => exact Or.inl (by simp only [Account.unpaused, ho, if_true, hc])
  · exact Or.inl (if_neg ho)

theorem pauseApart_iff {a a' : Account} :
    PauseApart P a a' ↔ a.unpaused P = a'.unpaused P := by
  constructor
  · intro h
    cases h with
    | same => rfl
    | configs owner owner' lamports read read' flags =>
      rw [Account.unpaused_of_config owner read, Account.unpaused_of_config owner' read', flags,
        lamports, owner, owner']
  · intro h
    -- A configuration whose flag is cleared is a configuration still.
    have hdecode (c : ConfigAccount) :
        ConfigAccount.decode (AccountData.raw c.unpaused.encode).bytes = .ok c.unpaused :=
      ConfigAccount.decode_encode _
    rcases Account.unpaused_cases P a with ha | ⟨c, ho, hc⟩
    · rcases Account.unpaused_cases P a' with ha' | ⟨c', ho', hc'⟩
      · rw [ha, ha'] at h
        exact h ▸ .same a
      · rw [ha, Account.unpaused_of_config ho' hc'] at h
        subst h
        exact .configs ho' ho' rfl (hdecode c') hc' rfl
    · rcases Account.unpaused_cases P a' with ha' | ⟨c', ho', hc'⟩
      · rw [ha', Account.unpaused_of_config ho hc] at h
        subst h
        exact .configs ho ho rfl hc (hdecode c) rfl
      · rw [Account.unpaused_of_config ho hc, Account.unpaused_of_config ho' hc'] at h
        obtain ⟨hl, -, hd⟩ := Account.mk.injEq .. ▸ h
        have he : c.unpaused.encode = c'.unpaused.encode := AccountData.raw.inj hd
        have hcc : (.ok c.unpaused : Except ProtocolError ConfigAccount) = .ok c'.unpaused := by
          rw [← ConfigAccount.decode_encode c.unpaused, he, ConfigAccount.decode_encode]
        exact .configs ho ho' hl.symm hc hc' (Except.ok.inj hcc)

theorem len_of_config {d : AccountData} {c : ConfigAccount}
    (hc : ConfigAccount.decode d.bytes = .ok c) : d.len = configAccountLen :=
  AccountData.len_eq_of_bytes (by decide) (ConfigAccount.of_decode hc).1

namespace PauseApart

variable {a a' : Account}

theorem lamports_eq (h : PauseApart P a a') : a'.lamports = a.lamports := by
  cases h with
  | same => rfl
  | configs _ _ lamports => exact lamports

theorem owner_eq (h : PauseApart P a a') : a'.owner = a.owner := by
  cases h with
  | same => rfl
  | configs owner owner' => rw [owner, owner']

theorem len_eq (h : PauseApart P a a') : a'.data.len = a.data.len := by
  cases h with
  | same => rfl
  | configs _ _ _ read read' => rw [len_of_config read, len_of_config read']

theorem eq_of_foreign (h : PauseApart P a a') (ho : a.owner ≠ P.programId) : a' = a := by
  cases h with
  | same => rfl
  | configs owner => exact absurd owner ho

theorem eq_of_len (h : PauseApart P a a') (hl : a.data.len ≠ configAccountLen) : a' = a := by
  cases h with
  | same => rfl
  | configs _ _ _ read => exact absurd (len_of_config read) hl

theorem fund (h : PauseApart P a a') (n : ℕ) :
    PauseApart P { a with lamports := n } { a' with lamports := n } := by
  cases h with
  | same => exact .same _
  | configs owner owner' lamports read read' flags =>
    exact .configs owner owner' rfl read read' flags

theorem decode (h : PauseApart P a a') :
    Lockstep (fun c c' => c.unpaused = c'.unpaused) (orFail (ConfigAccount.decode a.data.bytes))
      (orFail (ConfigAccount.decode a'.data.bytes)) := by
  cases h with
  | same =>
    cases ConfigAccount.decode a.data.bytes with
    | ok c => exact .ok rfl
    | error e => exact .error _ _
  | configs _ _ _ read read' flags =>
    rw [read, read']
    exact .ok flags

end PauseApart

namespace SeenAlike

theorem symm (h : SeenAlike P L L') : SeenAlike P L' L where
  lamports k := (h.lamports k).symm
  owner k := (h.owner k).symm
  len k := (h.len k).symm
  foreign k hk := (h.foreign k (by rwa [← h.owner])).symm

theorem account_of_token (h : SeenAlike P L L') {k : Pubkey}
    (ho : (L.account k).owner = tokenProgramId) : L'.account k = L.account k := by
  apply h.foreign
  rw [ho]
  exact P.programId_ne_token.symm

theorem tokenAt_eq (h : SeenAlike P L L') : L'.tokenAt = L.tokenAt := by
  ext k : 1
  by_cases ho : (L.account k).owner = tokenProgramId
  · simp only [Ledger.tokenAt, h.account_of_token ho]
  · rw [Ledger.tokenAt_of_owner ho, Ledger.tokenAt_of_owner]
    rwa [h.owner]

theorem mintAt_eq (h : SeenAlike P L L') : L'.mintAt = L.mintAt := by
  ext k : 1
  by_cases ho : (L.account k).owner = tokenProgramId
  · simp only [Ledger.mintAt, h.account_of_token ho]
  · rw [Ledger.mintAt_of_owner ho, Ledger.mintAt_of_owner]
    rwa [h.owner]

theorem put (h : SeenAlike P L L') (k : Pubkey) {a a' : Account} (hl : a'.lamports = a.lamports)
    (ho : a'.owner = a.owner) (hlen : a'.data.len = a.data.len)
    (hf : a.owner ≠ P.programId → a' = a) : SeenAlike P (L.put k a) (L'.put k a') := by
  have hput (M : Ledger) (b : Account) (i : Pubkey) :
      (M.put k b).account i = if i = k then b else M.account i := by
    split
    · rename_i hi
      rw [hi, Ledger.account_put_self]
    · exact Ledger.account_put_of_ne _ _ ‹_›
  constructor
  all_goals
    intro i
    simp only [hput]
    split
  · exact hl
  · exact h.lamports i
  · exact ho
  · exact h.owner i
  · exact hlen
  · exact h.len i
  · exact hf
  · exact h.foreign i

end SeenAlike

namespace UpToPause

theorem apart (h : UpToPause P L L') (k : Pubkey) : PauseApart P (L.account k) (L'.account k) :=
  pauseApart_iff.mpr (h k)

theorem of_apart (h : ∀ k, PauseApart P (L.account k) (L'.account k)) : UpToPause P L L' :=
  fun k => pauseApart_iff.mp (h k)

theorem refl (L : Ledger) : UpToPause P L L := fun _ => rfl

theorem symm (h : UpToPause P L L') : UpToPause P L' L := fun k => (h k).symm

theorem trans {L'' : Ledger} (h : UpToPause P L L') (h' : UpToPause P L' L'') :
    UpToPause P L L'' :=
  fun k => (h k).trans (h' k)

theorem seenAlike (h : UpToPause P L L') : SeenAlike P L L' where
  lamports k := (h.apart k).lamports_eq
  owner k := (h.apart k).owner_eq
  len k := (h.apart k).len_eq
  foreign k := (h.apart k).eq_of_foreign

/-- Ledgers that others see alike are the same up to the flags of the program's accounts. -/
theorem of_seenAlike {M M' : Ledger} (hs : SeenAlike P M M')
    (frame : ∀ k, (M.account k).owner = P.programId →
      PauseApart P (M.account k) (M'.account k)) : UpToPause P M M' := by
  refine of_apart fun k => ?_
  by_cases ho : (M.account k).owner = P.programId
  · exact frame k ho
  · rw [hs.foreign k ho]
    exact .same _

/-! ## Reading -/

theorem tokenAt_eq (h : UpToPause P L L') : L'.tokenAt = L.tokenAt := h.seenAlike.tokenAt_eq

theorem mintAt_eq (h : UpToPause P L L') : L'.mintAt = L.mintAt := h.seenAlike.mintAt_eq

theorem parseMint_eq (h : UpToPause P L L') : parseMint L' = parseMint L := by
  ext m : 1
  simp only [parseMint, h.mintAt_eq]

theorem validateMint_eq (h : UpToPause P L L') : validateMint L' = validateMint L := by
  ext m mint decimals : 3
  simp only [validateMint, h.parseMint_eq, h.seenAlike.owner]

theorem parseTokenAccount_eq (h : UpToPause P L L') :
    parseTokenAccount L' = parseTokenAccount L := by
  ext m : 1
  by_cases ho : (L.account m.key).owner = tokenProgramId
  · simp only [parseTokenAccount, h.seenAlike.account_of_token ho]
  · simp only [parseTokenAccount, h.seenAlike.owner, ensure, ho, if_false]
    rfl

theorem validateTokenAccount_eq (h : UpToPause P L L') :
    validateTokenAccount L' = validateTokenAccount L := by
  ext m mint owner : 3
  simp only [validateTokenAccount, h.parseTokenAccount_eq]

theorem validateAta_eq (h : UpToPause P L L') : validateAta P L' = validateAta P L := by
  ext m wallet mint : 3
  simp only [validateAta, h.validateTokenAccount_eq]

theorem tokenAmount_eq (h : UpToPause P L L') : tokenAmount L' = tokenAmount L := by
  ext m : 1
  simp only [tokenAmount, h.parseTokenAccount_eq]

theorem requireUninitialized_eq (h : UpToPause P L L') :
    requireUninitialized L' = requireUninitialized L := by
  ext m : 1
  refine ensure_congr ?_
  simp only [isUninitialized, h.seenAlike.owner, h.seenAlike.len]

theorem requireOwner_eq (h : UpToPause P L L') : requireOwner L' = requireOwner L := by
  ext m owner : 2
  simp only [requireOwner, h.seenAlike.owner]

theorem validatePda_eq (h : UpToPause P L L') : validatePda P L' = validatePda P L := by
  ext m seeds : 2
  simp only [validatePda, h.requireOwner_eq]

theorem loadAccount_eq {α : Type} {decode : List UInt8 → Except ProtocolError α}
    (h : UpToPause P L L') (len : ℕ) (hlen : len ≠ configAccountLen) :
    loadAccount L' len decode = loadAccount L len decode := by
  ext m : 1
  by_cases hl : (L.account m.key).data.len = len
  · have heq := (h.apart m.key).eq_of_len (by rwa [hl])
    simp only [loadAccount, heq]
  · simp only [loadAccount, h.seenAlike.len, ensure, hl, if_false]
    rfl

theorem loadValidatedProvider_eq (h : UpToPause P L L') :
    loadValidatedProvider P L' = loadValidatedProvider P L := by
  ext m : 1
  simp only [loadValidatedProvider, loadProvider, validateProviderPda, h.requireOwner_eq,
    h.validatePda_eq, h.loadAccount_eq providerAccountLen (by decide)]

theorem loadValidatedBond_eq (h : UpToPause P L L') :
    loadValidatedBond P L' = loadValidatedBond P L := by
  ext m : 1
  simp only [loadValidatedBond, loadBond, validateBondPda, h.requireOwner_eq, h.validatePda_eq,
    h.loadAccount_eq providerBondAccountLen (by decide)]

theorem loadJobBond_eq (h : UpToPause P L L') : loadJobBond P L' = loadJobBond P L := by
  ext m job : 2
  simp only [loadJobBond, h.loadValidatedBond_eq]

theorem loadValidatedJob_eq (h : UpToPause P L L') :
    loadValidatedJob P L' = loadValidatedJob P L := by
  ext m : 1
  simp only [loadValidatedJob, loadJob, validateJobPda, h.requireOwner_eq, h.validatePda_eq,
    h.loadAccount_eq jobAccountLen (by decide)]

theorem loadValidatedChallenge_eq (h : UpToPause P L L') :
    loadValidatedChallenge P L' = loadValidatedChallenge P L := by
  ext m job : 2
  simp only [loadValidatedChallenge, loadChallenge, validateChallengePda, h.requireOwner_eq,
    h.validatePda_eq, h.loadAccount_eq challengeAccountLen (by decide)]

theorem loadValidatedConfig (h : UpToPause P L L') (m : AccountMeta) :
    Lockstep (fun c c' => c.unpaused = c'.unpaused) (loadValidatedConfig P L m)
      (AgentBond.loadValidatedConfig P L' m) := by
  simp only [AgentBond.loadValidatedConfig, loadConfig, loadAccount, validateConfigPda,
    h.requireOwner_eq, h.validatePda_eq, h.seenAlike.len]
  apply Lockstep.bind_same
  intro _ _
  apply Lockstep.bind
  · exact .bind_same fun _ _ => (h.apart m.key).decode
  · intro c c' _ _ hflags
    obtain ⟨b, rfl⟩ := ConfigAccount.exists_of_unpaused_eq hflags
    exact .bind_same fun _ _ => .ok hflags

theorem loadValidatedConfigReadonly (h : UpToPause P L L') (m : AccountMeta) :
    Lockstep (fun c c' => c.unpaused = c'.unpaused) (loadValidatedConfigReadonly P L m)
      (AgentBond.loadValidatedConfigReadonly P L' m) :=
  .bind_same fun _ _ => h.loadValidatedConfig m

/-! ## Writing -/

theorem put (h : UpToPause P L L') (k : Pubkey) {a a' : Account} (ha : PauseApart P a a') :
    UpToPause P (L.put k a) (L'.put k a') := by
  refine of_apart fun i => ?_
  by_cases hi : i = k
  · subst hi
    rwa [Ledger.account_put_self, Ledger.account_put_self]
  · rw [Ledger.account_put_of_ne _ _ hi, Ledger.account_put_of_ne _ _ hi]
    exact h.apart i

theorem writeAccountData (h : UpToPause P L L') (m : AccountMeta) (data : List UInt8) :
    Lockstep (UpToPause P) (writeAccountData L m data) (AgentBond.writeAccountData L' m data) := by
  simp only [AgentBond.writeAccountData, h.seenAlike.len]
  apply Lockstep.bind_same
  intro _ _
  apply Lockstep.bind_same
  intro _ _
  apply Lockstep.ok
  apply h.put
  rw [h.seenAlike.lamports, h.seenAlike.owner]
  exact .same _

theorem writeEncoded (h : UpToPause P L L') (m : AccountMeta)
    (encoded : Except ProtocolError (List UInt8)) :
    Lockstep (UpToPause P) (do let data ← orFail encoded; AgentBond.writeAccountData L m data)
      (do let data ← orFail encoded; AgentBond.writeAccountData L' m data) :=
  .bind_same fun data _ => h.writeAccountData m data

theorem saveJob (h : UpToPause P L L') (m : AccountMeta) (j : JobAccount) :
    Lockstep (UpToPause P) (saveJob L m j) (AgentBond.saveJob L' m j) :=
  h.writeAccountData m j.encode

theorem saveProvider (h : UpToPause P L L') (m : AccountMeta) (p : ProviderAccount) :
    Lockstep (UpToPause P) (saveProvider L m p) (AgentBond.saveProvider L' m p) :=
  h.writeEncoded m p.encode

theorem saveBond (h : UpToPause P L L') (m : AccountMeta) (b : ProviderBondAccount) :
    Lockstep (UpToPause P) (saveBond L m b) (AgentBond.saveBond L' m b) :=
  h.writeEncoded m b.encode

theorem saveChallenge (h : UpToPause P L L') (m : AccountMeta) (c : ChallengeAccount) :
    Lockstep (UpToPause P) (saveChallenge L m c) (AgentBond.saveChallenge L' m c) :=
  h.writeEncoded m c.encode

theorem closePdaAccount (h : UpToPause P L L') (account recipient : AccountMeta) :
    Lockstep (UpToPause P) (closePdaAccount L account recipient)
      (AgentBond.closePdaAccount L' account recipient) := by
  simp only [AgentBond.closePdaAccount, h.seenAlike.lamports]
  apply Lockstep.bind_same
  intro _ _
  apply Lockstep.bind_same
  intro _ _
  apply Lockstep.bind_same
  intro _ _
  apply Lockstep.ok
  exact (h.put _ ((h.apart _).fund _)).put _ (.same _)

/-! ## Calls to other programs -/

section Calls

variable (hP : P.Discreet)
include hP

theorem createPdaAccount (h : UpToPause P L L') (payer account : AccountMeta) (space : ℕ)
    (seeds : Seeds) :
    Lockstep (UpToPause P) (createPdaAccount P L payer account space seeds)
      (AgentBond.createPdaAccount P L' payer account space seeds) := by
  simp only [AgentBond.createPdaAccount, invokeCreateAccount, h.requireUninitialized_eq]
  apply Lockstep.bind_same
  intro _ _
  apply Lockstep.bind_same
  intro _ _
  apply Lockstep.bind_same
  intro _ _
  apply Lockstep.bind_same
  intro _ _
  apply Lockstep.imp (hP.createAccount h.seenAlike)
  intro M M' hM hM' hseen
  have hc := P.createAccount_ok hM
  have hc' := P.createAccount_ok hM'
  -- Both calls create the same account and charge the payer alike.
  refine of_seenAlike hseen fun k _ => ?_
  by_cases hk : k = account.key
  · rw [hk, hc.created, hc'.created]
    exact .same _
  · by_cases hp : k = payer.key
    · rw [hp, hc.charged, hc'.charged, h.seenAlike.lamports]
      exact (h.apart payer.key).fund _
    · rw [hc.frame k hp hk, hc'.frame k hp hk]
      exact h.apart k

theorem transferChecked (h : UpToPause P L L')
    (source mint destination authority : AccountMeta) (amount : ℕ) (decimals : UInt8)
    (seeds : Option Seeds)
    (hsource : ∃ t, L.tokenAt source.key = some t ∧ t.delegate = none) :
    Lockstep (UpToPause P)
      (transferChecked P L source mint destination authority amount decimals seeds)
      (AgentBond.transferChecked P L' source mint destination authority amount decimals seeds) := by
  obtain ⟨t, ht, hd⟩ := hsource
  have ht' : L'.tokenAt source.key = some t := by rwa [h.tokenAt_eq]
  apply Lockstep.bind_same
  intro _ _
  apply Lockstep.bind_same
  intro _ _
  apply Lockstep.bind_same
  intro _ _
  apply Lockstep.imp (hP.transferChecked h.seenAlike)
  intro M M' hM hM' hseen
  have hx := P.transferChecked_ok hM ht hd
  have hx' := P.transferChecked_ok hM' ht' hd
  obtain ⟨td, htd, -⟩ := hx.credited
  have howner {i : Pubkey} {t : TokenAccount} (hi : L.tokenAt i = some t) :
      (M.account i).owner ≠ P.programId := by
    obtain ⟨n, hn⟩ := Tokens.move_some source.key destination.key amount i hi
    rw [← hx.tokens] at hn
    rw [Ledger.owner_of_tokenAt hn]
    exact P.programId_ne_token.symm
  refine of_seenAlike hseen fun k hk => ?_
  have hks : k ≠ source.key := by
    rintro rfl
    exact howner ht hk
  have hkd : k ≠ destination.key := by
    rintro rfl
    exact howner htd hk
  rw [hx.frame k hks hkd, hx'.frame k hks hkd]
  exact h.apart k

theorem closeTokenAccount (h : UpToPause P L L') (m destination authority : AccountMeta)
    (seeds : Seeds) :
    Lockstep (UpToPause P) (closeTokenAccount P L m destination authority seeds)
      (AgentBond.closeTokenAccount P L' m destination authority seeds) := by
  apply Lockstep.bind_same
  intro _ _
  apply Lockstep.bind_same
  intro _ _
  apply Lockstep.bind_same
  intro _ _
  apply Lockstep.imp (hP.closeAccount h.seenAlike)
  intro M M' hM hM' hseen
  have hc := P.closeAccount_ok hM
  have hc' := P.closeAccount_ok hM'
  refine of_seenAlike hseen fun k _ => ?_
  by_cases hk : k = m.key
  · rw [hk, hc.closed, hc'.closed]
    exact .same _
  · by_cases hd : k = destination.key
    · obtain ⟨n, hn⟩ := hc.refunded
      obtain ⟨n', hn'⟩ := hc'.refunded
      have hl := hseen.lamports destination.key
      rw [hn, hn'] at hl
      obtain rfl : n' = n := hl
      rw [hd, hn, hn']
      exact (h.apart destination.key).fund _
    · rw [hc.frame k hk hd, hc'.frame k hk hd]
      exact h.apart k

end Calls

end UpToPause

end AgentBond
