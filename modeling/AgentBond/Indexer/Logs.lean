import AgentBond.Foundation.Encodings
import AgentBond.Indexer.Types
import AgentBond.Types.Events

/-! # Event extraction

Protocol events of a transaction are read off its log lines. The reader rebuilds
the stack of invocations from the frame lines and attributes a data line to the
program on top; a frame line that does not fit the stack clears it.
-/

namespace AgentBond.Indexer

open Foundation

/-- The encodings the reader takes from its libraries: the display of a key, and base 64. -/
structure Encodings where
  keyText : Pubkey → Text
  decodeBase64 : Text → Option (List UInt8)
  keyText_injective : Function.Injective keyText
  keyText_plain : ∀ key, ' ' ∉ keyText key ∧ ':' ∉ keyText key
  decodeBase64_eq_some : ∀ text bytes, decodeBase64 text = some bytes ↔ text = Base64.encode bytes

/-- The encodings themselves. -/
def Encodings.standard : Encodings where
  keyText key := Base58.encode key.toList
  decodeBase64 := Base64.decode
  keyText_injective a b h := List.Vector.eq a b (Base58.encode_injective (by simp) h)
  keyText_plain _ :=
    ⟨fun h => absurd (Base58.mem_encode h) (by decide), fun h =>
      absurd (Base58.mem_encode h) (by decide)⟩
  decodeBase64_eq_some _ _ := Base64.decode_eq_some

def maxLogB64 : ℕ := 256
def maxStackDepth : ℕ := 64

def programWord : Text := "Program ".toList
def dataWord : Text := "Program data: ".toList
def invokeWord : Text := "invoke".toList
def successWord : Text := "success".toList
def failedWord : Text := "failed".toList

def parseInvokeDepth (after : Text) : Option ℕ :=
  match after.idxOf? '[', after.idxOf? ']' with
  | some start, some stop =>
    if stop ≤ start + 1 then none
    else Text.parseUsize ((after.drop (start + 1)).take (stop - (start + 1)))
  | _, _ => none

def pushFrame (stack : List Text) (id : Text) : List Text :=
  if maxStackDepth ≤ stack.length then [] else id :: stack

/-- The stack after a line that names the program `id` and goes on with `after`, when it reads
as a frame line. -/
def frameStep (stack : List Text) (id after : Text) : Option (List Text) :=
  if Text.startsWith invokeWord after then
    some (match parseInvokeDepth after with
      | some depth => if depth ≠ stack.length + 1 then [] else pushFrame stack id
      | none => pushFrame stack id)
  else if Text.startsWith successWord after || Text.startsWith failedWord after then
    -- A mismatch must not expose an older AgentBond frame.
    some (if stack.head? = some id then stack.tail else [])
  else none

/-- The stack after a line, when it reads as a frame line. -/
def frameLine (stack : List Text) (log : Text) : Option (List Text) := do
  let rest ← Text.stripPrefix programWord log
  let (id, after) ← Text.splitOnce ' ' rest
  frameStep stack id after

variable (E : Encodings)

/-- The event in the text of a data line. -/
def eventOfData (data : Text) : Option ProtocolEvent := do
  let trimmed := Text.trim data
  if maxLogB64 * 2 < Text.utf8Len trimmed then none
  else
    let bytes ← E.decodeBase64 trimmed
    if bytes.length ≠ eventEncodedLen then none else (ProtocolEvent.decode bytes).toOption

/-- The event of a line that does not read as a frame line. -/
def eventOfLine (program : Pubkey) (stack : List Text) (log : Text) : Option ProtocolEvent := do
  let data ← Text.stripPrefix dataWord log
  let active ← stack.head?
  if active ≠ E.keyText program then none else eventOfData E data

/-- The variables of the loop over the lines. -/
structure Extraction where
  stack : List Text
  out : List RawProtocolEvent
  eventIndex : UInt32

def saturatingSucc (i : UInt32) : UInt32 := if i = 4294967295 then i else i + 1

variable (program : Pubkey) (signature : String) (slot : UInt64) (commitment : Commitment)

def rawEvent (event : ProtocolEvent) (index : UInt32) : RawProtocolEvent :=
  { signature, eventIndex := index, slot, programId := program, kind := event.kind.asU8,
    subject := event.subject, actor := event.actor, amount := event.amount,
    eventTimestamp := event.timestamp, commitment }

def extractLine (s : Extraction) (log : Text) : Extraction :=
  match frameLine s.stack log with
  | some stack => { s with stack }
  | none =>
    match eventOfLine E program s.stack log with
    | some event =>
      { s with
        out := s.out ++ [rawEvent program signature slot commitment event s.eventIndex]
        eventIndex := saturatingSucc s.eventIndex }
    | none => s

def extractProtocolEvents (logs : List Text) : List RawProtocolEvent :=
  (logs.foldl (extractLine E program signature slot commitment) ⟨[], [], 0⟩).out

end AgentBond.Indexer
