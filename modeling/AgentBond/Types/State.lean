import AgentBond.Types.Error

/-! # Job states

The life cycle of a job: eleven transitions, four terminal states.
-/

namespace AgentBond

inductive JobState
  | created | funded | accepted | submitted | challenged | settled | refunded | expired | slashed
  deriving DecidableEq, Repr

namespace JobState

/-- The state with the given byte. -/
def fromU8 (value : UInt8) : Except ProtocolError JobState :=
  match value.toNat with
  | 0 => .ok created
  | 1 => .ok funded
  | 2 => .ok accepted
  | 3 => .ok submitted
  | 4 => .ok challenged
  | 5 => .ok settled
  | 6 => .ok refunded
  | 7 => .ok expired
  | 8 => .ok slashed
  | _ => .error .invalidJobState

def asU8 : JobState → UInt8
  | created => 0
  | funded => 1
  | accepted => 2
  | submitted => 3
  | challenged => 4
  | settled => 5
  | refunded => 6
  | expired => 7
  | slashed => 8

@[simp] theorem fromU8_asU8 (s : JobState) : fromU8 s.asU8 = .ok s := by
  cases s <;> rfl

/-- Nothing leaves these states. -/
def isTerminal : JobState → Bool
  | settled | refunded | expired | slashed => true
  | _ => false

/-- The principal is in escrow in these states. -/
def holdsEscrow : JobState → Bool
  | funded | accepted | submitted | challenged => true
  | _ => false

/-- Part of the provider's bond may be locked in these states. -/
def locksBond : JobState → Bool
  | accepted | submitted | challenged => true
  | _ => false

/-- The principal has been paid out in these states. -/
def isPaid : JobState → Bool
  | settled | refunded | slashed => true
  | _ => false

end JobState

open JobState in
/-- The transition table of the source. -/
def validateTransition (source target : JobState) : Except ProtocolError Unit :=
  if source.asU8 = target.asU8 then .error .invalidStateTransition
  else if source.isTerminal then .error .invalidStateTransition
  else
    match source, target with
    | created, funded | created, expired
    | funded, accepted | funded, refunded
    | accepted, submitted | accepted, refunded
    | submitted, settled | submitted, challenged
    | challenged, settled | challenged, refunded | challenged, slashed => .ok ()
    | _, _ => .error .invalidStateTransition

theorem not_isTerminal_of_validateTransition {s t : JobState} {u : Unit}
    (h : validateTransition s t = .ok u) : s.isTerminal = false := by
  cases s <;> first | rfl | (cases t <;> cases h)

end AgentBond
