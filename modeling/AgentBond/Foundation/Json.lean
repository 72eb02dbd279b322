import AgentBond.Foundation.Text

/-! # JSON values

Values and the compact text a serializer writes them as: strings with the short
escapes, other control characters by their code, members in the order they are
kept in.
-/

namespace Foundation

/-- A number is a word, a negative word, or a float with the digits it is written with. -/
inductive Number
  | posInt (n : UInt64)
  | negInt (n : Int64)
  | float (digits : Text)
  deriving DecidableEq

/-- The members of an object are kept in the order of their keys. -/
inductive Json
  | null
  | bool (b : Bool)
  | number (n : Number)
  | string (s : Text)
  | array (items : List Json)
  | object (members : List (Text × Json))

namespace Json

def quote : Char := Char.ofNat 34
def backslash : Char := Char.ofNat 92

/-- A character inside a string. -/
def escape (c : Char) : Text :=
  if c = quote ∨ c = backslash then [backslash, c]
  else if c.toNat = 8 then [backslash, 'b']
  else if c.toNat = 9 then [backslash, 't']
  else if c.toNat = 10 then [backslash, 'n']
  else if c.toNat = 12 then [backslash, 'f']
  else if c.toNat = 13 then [backslash, 'r']
  else if c.toNat < 32 then
    [backslash, 'u', '0', '0', Nat.digitChar (c.toNat / 16), Nat.digitChar (c.toNat % 16)]
  else [c]

def writeString (s : Text) : Text := quote :: s.flatMap escape ++ [quote]

def writeNumber : Number → Text
  | .posInt n => Nat.toDigits 10 n.toNat
  | .negInt n => '-' :: Nat.toDigits 10 n.toInt.natAbs
  | .float digits => digits

mutual

/-- The compact text of a value. -/
def write : Json → Text
  | null => "null".toList
  | bool b => if b then "true".toList else "false".toList
  | number n => writeNumber n
  | string s => writeString s
  | array items => '[' :: writeItems items ++ [']']
  | object members => Char.ofNat 123 :: writeMembers members ++ [Char.ofNat 125]

def writeItems : List Json → Text
  | [] => []
  | [v] => write v
  | v :: v' :: items => write v ++ ',' :: writeItems (v' :: items)

def writeMembers : List (Text × Json) → Text
  | [] => []
  | [(k, v)] => writeString k ++ ':' :: write v
  | (k, v) :: m :: members => writeString k ++ ':' :: write v ++ ',' :: writeMembers (m :: members)

end

/-- The text holds the character with code 0. -/
def nul (s : Text) : Bool := s.any fun c => c.toNat = 0

mutual

/-- Some string or key of the value holds the character with code 0. -/
def hasNul : Json → Bool
  | string s => nul s
  | array items => anyNul items
  | object members => anyMemberNul members
  | _ => false

def anyNul : List Json → Bool
  | [] => false
  | v :: items => hasNul v || anyNul items

def anyMemberNul : List (Text × Json) → Bool
  | [] => false
  | (k, v) :: members => nul k || hasNul v || anyMemberNul members

end

end Json

end Foundation
