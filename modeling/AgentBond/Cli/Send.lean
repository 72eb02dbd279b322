import AgentBond.Sdk.Send

/-! # The command that sends a plan

The command reads the plan and the keys from files that nobody else may read,
asks the node which chain it is on, shows the plan, and sends it only when that
has been approved.
-/

namespace AgentBond

open Foundation

/-- What the command finds on the disk: the mode of a file, the plan and the keys. -/
structure Files where
  mode : Text → Option ℕ
  plan : Text → Option InstructionPlan
  keypair : Text → Option Pubkey

inductive CliError
  | io (context : String)
  | bail (text : String)
  | send (e : SendError)
  deriving DecidableEq

abbrev Cli (α : Type) := Except CliError α

/-- The parts of a parsed URL that the client looks at. -/
structure Url where
  scheme : Text
  username : Text
  password : Option Text

/-- The address of the node is a plain web address, which carries no credentials. -/
def Url.Plain (url : Url) : Prop :=
  (url.scheme = "http".toList ∨ url.scheme = "https".toList) ∧ url.username = [] ∧
    url.password = none

def rejectCredentialedUrl (parseUrl : Text → Except String Url) (raw : Text) : Sent Url := do
  let url ← (parseUrl raw).mapError fun e => .rpc ("invalid url: " ++ e)
  ensure (url.scheme = "http".toList ∨ url.scheme = "https".toList) (.rpc "url must be http(s)")
  ensure (url.username = [] ∧ url.password = none) (.rpc "url must not contain credentials")
  .ok url

section Command

variable {Tx : Type}

def refuseInsecureKeyPerms (files : Files) (path : Text) : Cli Unit :=
  match files.mode path with
  | none => .error (.io ("key file " ++ String.ofList path))
  | some mode =>
    if mode &&& 0o777 &&& 0o077 ≠ 0 then
      .error (.bail ("refusing insecure key file permissions " ++
        String.ofList (Nat.toDigits 8 (mode &&& 0o777)) ++ " for " ++ String.ofList path))
    else .ok ()

def readKeypair (files : Files) (path : Text) : Cli Pubkey :=
  okOr (files.keypair path) (.io "keypair")

/-- The program the plan has to be for: the one that is named, or else the one the client knows. -/
def expectedProgramOf (programId : Pubkey) (expectedProgram : Option Text) : Cli Pubkey :=
  match expectedProgram with
  | some text => (parsePubkey text).mapError fun e => .send (.sdk e)
  | none => .ok programId

variable (files : Files) (parseUrl : Text → Except String Url)
  (sign : List ChainInstruction → Pubkey → List Pubkey → Bytes 32 → Except String Tx)
  (programId : Pubkey) (rpcUrl payerPath planPath : Text) (yes allowMainnet : Bool)
  (signerPaths : List Text) (expectedProgram : Option Text)

/-- What is read and checked before the node is asked anything. -/
def readPlan : Cli (InstructionPlan × Pubkey) := do
  let _ ← (payerPath :: signerPaths).mapM (refuseInsecureKeyPerms files)
  let plan ← okOr (files.plan planPath) (.io "plan")
  let program ← expectedProgramOf programId expectedProgram
  let _ ← (rejectCredentialedUrl parseUrl rpcUrl).mapError .send
  .ok (plan, program)

/-- The keys are read after the plan has been approved. -/
def readKeys : Cli (Pubkey × List Pubkey) := do
  ensure (yes = true) (.bail "pass --yes to submit after reviewing the summary above")
  let payer ← readKeypair files payerPath
  let extras ← signerPaths.mapM (readKeypair files)
  .ok (payer, extras)

def runSend : RpcProgram Tx (Cli SubmitResult) :=
  match readPlan files parseUrl programId rpcUrl payerPath planPath signerPaths expectedProgram with
  | .error e => .done (.error e)
  | .ok (plan, program) =>
    .call .getGenesisHash fun
      | .error e => .done (.error (.send e))
      | .ok genesis =>
        if clusterFromGenesisHash genesis = .mainnetBeta ∧ allowMainnet = false then
          .done (.error (.bail
            "mainnet blocked without --allow-mainnet (detected via genesis hash)"))
        else
          match readKeys files payerPath yes signerPaths with
          | .error e => .done (.error e)
          | .ok (payer, extras) =>
            (simulateAndSendPlan sign plan program payer extras allowMainnet
              (.production 30000)).bind
              fun r => .done (r.mapError .send)

end Command

section Safety

variable {Tx : Type} (files : Files) (parseUrl : Text → Except String Url)
  (sign : List ChainInstruction → Pubkey → List Pubkey → Bytes 32 → Except String Tx)
  (programId : Pubkey) (rpcUrl payerPath planPath : Text) (yes allowMainnet : Bool)
  (signerPaths : List Text) (expectedProgram : Option Text)

/-- The plan in the file was approved, only its owner can read the keys that sign it, and the
address of the node is plain. -/
structure Approved (plan : InstructionPlan) (program payer : Pubkey) (extras : List Pubkey) :
    Prop where
  yes : yes = true
  plan : files.plan planPath = some plan
  program : expectedProgramOf programId expectedProgram = .ok program
  owned : ∀ path ∈ payerPath :: signerPaths, ∃ mode, files.mode path = some mode ∧
    mode &&& 0o777 &&& 0o077 = 0
  payer : files.keypair payerPath = some payer
  extras : ∀ k ∈ extras, ∃ path ∈ signerPaths, files.keypair path = some k
  url : ∃ url, parseUrl rpcUrl = .ok url ∧ url.Plain

/-- The transaction of an approved plan is sent once it is cleared. -/
def runContract : Contract (RpcCall Tx) RpcCall.Reply (Cli SubmitResult) where
  calls h
    | .sendTransaction tx => Cleared allowMainnet h tx ∧ ∃ plan program payer extras,
        Approved files parseUrl programId rpcUrl payerPath planPath yes signerPaths expectedProgram
          plan program payer extras ∧ SignedPlan sign plan program payer extras h tx
    | .getSignatureStatuses signature => polls h < 20 ∧
        ∃ tx, ⟨.sendTransaction tx, .ok signature⟩ ∈ h
    | _ => True
  result h r := ∀ result, r = .ok result → Confirmed h result

variable {files parseUrl sign programId rpcUrl payerPath planPath yes allowMainnet signerPaths
  expectedProgram}

theorem refuseInsecureKeyPerms_eq_ok {path : Text} {u : Unit} :
    refuseInsecureKeyPerms files path = .ok u ↔
      ∃ mode, files.mode path = some mode ∧ mode &&& 0o777 &&& 0o077 = 0 := by
  unfold refuseInsecureKeyPerms
  split
  · rename_i hmode
    exact iff_of_false (fun h => by cases h) fun ⟨mode, h, _⟩ => by cases hmode.symm.trans h
  · rename_i mode hmode
    split
    · rename_i hopen
      refine iff_of_false (fun h => by cases h) ?_
      rintro ⟨mode', h, hclosed⟩
      cases hmode.symm.trans h
      exact hopen hclosed
    · rename_i hopen
      exact iff_of_true rfl ⟨mode, hmode, not_not.mp hopen⟩

theorem mapM_eq_ok {ε α β : Type} {f : α → Except ε β} {xs : List α} {ys : List β}
    (h : xs.mapM f = .ok ys) :
    (∀ x ∈ xs, ∃ y, f x = .ok y) ∧ ∀ y ∈ ys, ∃ x ∈ xs, f x = .ok y := by
  induction xs generalizing ys with
  | nil =>
    cases h
    exact ⟨fun x hx => (by cases hx), fun y hy => (by cases hy)⟩
  | cons x xs ih =>
    simp only [List.mapM_cons, bind_eq_ok] at h
    obtain ⟨y, hy, ys', hys, h⟩ := h
    cases h
    obtain ⟨hall, hfrom⟩ := ih hys
    exact ⟨List.forall_mem_cons.mpr ⟨⟨y, hy⟩, hall⟩, List.forall_mem_cons.mpr
      ⟨⟨x, List.mem_cons_self, hy⟩, fun y' hy' => by
        obtain ⟨x', hx', hf⟩ := hfrom y' hy'
        exact ⟨x', List.mem_cons_of_mem _ hx', hf⟩⟩⟩

theorem plain_of_rejectCredentialedUrl {raw : Text} {url : Url}
    (h : rejectCredentialedUrl parseUrl raw = .ok url) : parseUrl raw = .ok url ∧ url.Plain := by
  simp only [rejectCredentialedUrl, bind_eq_ok, mapError_eq_ok, ensure_eq_ok, exists_const,
    Except.ok.injEq] at h
  obtain ⟨_, hparse, hscheme, hplain, rfl⟩ := h
  exact ⟨hparse, hscheme, hplain⟩

theorem readPlan_eq_ok {plan : InstructionPlan} {program : Pubkey}
    (h : readPlan files parseUrl programId rpcUrl payerPath planPath signerPaths expectedProgram =
      .ok (plan, program)) :
    (∀ path ∈ payerPath :: signerPaths, ∃ mode, files.mode path = some mode ∧
        mode &&& 0o777 &&& 0o077 = 0) ∧
      files.plan planPath = some plan ∧ expectedProgramOf programId expectedProgram = .ok program ∧
      ∃ url, parseUrl rpcUrl = .ok url ∧ url.Plain := by
  simp only [readPlan, bind_eq_ok, okOr_eq_ok, mapError_eq_ok, Except.ok.injEq, Prod.mk.injEq] at h
  obtain ⟨_, hmodes, _, hplan, _, hprogram, url, hurl, rfl, rfl⟩ := h
  refine ⟨fun path hpath => ?_, hplan, hprogram, url, plain_of_rejectCredentialedUrl hurl⟩
  obtain ⟨u, hu⟩ := (mapM_eq_ok hmodes).1 path hpath
  exact refuseInsecureKeyPerms_eq_ok.mp hu

theorem readKeys_eq_ok {payer : Pubkey} {extras : List Pubkey}
    (h : readKeys files payerPath yes signerPaths = .ok (payer, extras)) :
    yes = true ∧ files.keypair payerPath = some payer ∧
      ∀ k ∈ extras, ∃ path ∈ signerPaths, files.keypair path = some k := by
  simp only [readKeys, readKeypair, bind_eq_ok, ensure_eq_ok, okOr_eq_ok, exists_const,
    Except.ok.injEq, Prod.mk.injEq] at h
  obtain ⟨hyes, _, hpayer, _, hextras, rfl, rfl⟩ := h
  refine ⟨hyes, hpayer, fun k hk => ?_⟩
  obtain ⟨path, hpath, hread⟩ := (mapM_eq_ok hextras).2 k hk
  exact ⟨path, hpath, okOr_eq_ok.mp hread⟩

theorem runSend_keeps :
    (runSend files parseUrl sign programId rpcUrl payerPath planPath yes allowMainnet signerPaths
      expectedProgram).Keeps
      (runContract files parseUrl sign programId rpcUrl payerPath planPath yes
        allowMainnet signerPaths expectedProgram) [] := by
  unfold runSend
  split
  · exact fun result hr => by cases hr
  rename_i plan program hread
  obtain ⟨howned, hplan, hprogram, hurl⟩ := readPlan_eq_ok hread
  refine ⟨trivial, fun r => ?_⟩
  cases r with
  | error e => exact fun result hr => by cases hr
  | ok genesis =>
    dsimp only
    split
    · exact fun result hr => by cases hr
    rename_i hmain
    split
    · exact fun result hr => by cases hr
    rename_i payer extras hkeys
    obtain ⟨hyes, hpayer, hextras⟩ := readKeys_eq_ok hkeys
    have happroved : Approved files parseUrl programId rpcUrl payerPath planPath yes signerPaths
        expectedProgram plan program payer extras :=
      ⟨hyes, hplan, hprogram, howned, hpayer, hextras, hurl⟩
    have hstart : OffMainnet allowMainnet ([] : Exchanges Tx) := .inr fun hg => by cases hg
    have hnetwork : OffMainnet allowMainnet ([⟨.getGenesisHash, .ok genesis⟩] : Exchanges Tx) :=
      hstart.genesis hmain
    have hunsent : Unsent ([⟨.getGenesisHash, .ok genesis⟩] : Exchanges Tx) := by
      intro tx r hr
      cases List.mem_singleton.mp hr
    have hcore : (simulateAndSendPlan sign plan program payer extras allowMainnet
        (.production 30000)).Keeps
          (sendContract sign plan program payer extras allowMainnet (.production 30000))
          [⟨.getGenesisHash, .ok genesis⟩] :=
      simulateAndSendPlan_keeps hunsent hnetwork rfl
    refine Prog.Keeps.bind (hcore.mono ?_ ?_)
    · intro h c hc
      cases c with
      | sendTransaction tx => exact ⟨hc.1, plan, program, payer, extras, happroved, hc.2⟩
      | getSignatureStatuses signature => exact hc
      | _ => trivial
    · intro h r hr result hresult
      cases r with
      | error e => cases hresult
      | ok result' =>
        cases hresult
        exact hr _ rfl

/-- Whatever the node answers and wherever the command stops: it sends at most one transaction, made
of an approved plan that passes the check at the time of the node, signed with keys that only their
owner can read, to a plain address, after the node has simulated it and, unless that is allowed, has
not answered the hash that the client holds for the main network; it asks for its status twenty
times at most, and reports what the node has confirmed. -/
theorem send_command_safe {events : List (Event (RpcCall Tx) RpcCall.Reply)}
    {f : Flow (RpcCall Tx) RpcCall.Reply (Cli SubmitResult)}
    (h : (Flow.ready (runSend files parseUrl sign programId rpcUrl payerPath planPath yes
      allowMainnet signerPaths expectedProgram)).Leads RpcCall.Remote events f) :
    (∀ pre tx post, events = pre ++ .sent (.sendTransaction tx) :: post →
      (∀ tx', .sent (.sendTransaction tx') ∉ pre) ∧ Cleared allowMainnet (exchanges pre) tx ∧
        ∃ plan program payer extras, Approved files parseUrl programId rpcUrl payerPath planPath yes
          signerPaths expectedProgram plan program payer extras ∧
          SignedPlan sign plan program payer extras (exchanges pre) tx) ∧
      (∀ pre signature post, events = pre ++ .sent (.getSignatureStatuses signature) :: post →
        polls (exchanges pre) < 20 ∧ ∃ tx, ⟨.sendTransaction tx, .ok signature⟩ ∈ exchanges pre) ∧
      ∀ result, f.outcome = some (.ok result) → Confirmed (exchanges events) result := by
  obtain ⟨hcalls, hresult⟩ := runSend_keeps.leads h
  refine ⟨fun pre tx post he => ?_, fun pre signature post he => hcalls pre _ post he _ rfl,
    fun result hf => hresult _ hf result rfl⟩
  obtain ⟨hcleared, happroved⟩ := hcalls pre _ post he (.sendTransaction tx) rfl
  refine ⟨fun tx' hsent => ?_, hcleared, happroved⟩
  -- What was sent before has been answered, and then nothing else is sent.
  obtain ⟨pre, mid, rfl⟩ := List.append_of_mem hsent
  cases mid with
  | nil =>
    rw [he, List.append_assoc] at h
    obtain ⟨r, hr⟩ := h.answered
    cases hr
  | cons e mid =>
    rw [he, List.append_assoc] at h
    obtain ⟨r, rfl⟩ := h.answered
    exact hcleared.unsent tx' r (List.mem_filterMap.mpr ⟨.replied _ r, by simp, rfl⟩)

end Safety

namespace Sample

def sentPlan : InstructionPlan :=
  .new "accept_work" programId
    [⟨programId, [.newReadonly buyer true], [InstructionKind.acceptWork.asU8]⟩] [buyer] none

def disk : Files where
  mode := fun _ => some 0o600
  plan := fun _ => some sentPlan
  keypair := fun _ => some buyer

/-- A transaction with its instructions, its signers and its blockhash. -/
abbrev Signed := List ChainInstruction × List Pubkey × Bytes 32

def signAll (ixs : List ChainInstruction) (_payer : Pubkey) (signers : List Pubkey)
    (blockhash : Bytes 32) : Except String Signed := .ok (ixs, signers, blockhash)

/-- A node of a local network that confirms what it is sent. -/
def honestNode : (c : RpcCall Signed) → c.Reply
  | .getGenesisHash => .ok "local".toList
  | .getSlot => .ok 5
  | .getBlockTime _ => .ok (some 100)
  | .getLatestBlockhash => .ok (keyToText mint)
  | .simulateTransaction _ => .ok ⟨none⟩
  | .sendTransaction _ => .ok "signature".toList
  | .getSignatureStatuses _ => .ok (some [some ⟨some "confirmed".toList, none⟩])
  | .elapsed => 7
  | .sleep _ => ()

/-- The parser of an address without a user. -/
def parseLocal (_raw : Text) : Except String Url :=
  .ok { scheme := "http".toList, username := [], password := none }

def sending : RpcProgram Signed (Cli SubmitResult) :=
  runSend disk parseLocal signAll programId "http://localhost:8899".toList ['p'] ['f'] true false []
    none

def confirmedResult : SubmitResult :=
  ⟨"signature".toList, "confirmed".toList, "LocalOrUnknown", "local".toList⟩

theorem send_command_safe_sending :
    sending.value honestNode = .ok confirmedResult ∧
      Confirmed (exchanges (sending.transcript RpcCall.Remote honestNode)) confirmedResult := by
  have hvalue : sending.value honestNode = .ok confirmedResult := by decide +kernel
  refine ⟨hvalue, (send_command_safe (sending.leads_transcript RpcCall.Remote honestNode)).2.2 _ ?_⟩
  exact congrArg some hvalue

end Sample

end AgentBond
