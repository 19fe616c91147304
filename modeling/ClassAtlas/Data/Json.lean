/-!
# Structured values and their printed form

Reports are written, and read back, as JSON. Objects keep the order of their members.
Numbers are integers, or decimals that are no integers by their form. The printed form
puts every element on a line of its own, indented by two blanks for each level.
-/

namespace ClassAtlas

/-- A structured value. -/
inductive Json
  | null
  | bool (value : Bool)
  | integer (value : Int)
  | decimal (mantissa : Int) (exponent : Nat)
  | string (value : String)
  | array (values : List Json)
  | object (members : List (String × Json))
  deriving Inhabited

namespace Json

/-- The number of a member that may be absent. -/
def natMember (name : String) : Option Nat → List (String × Json)
  | some value => [(name, integer value)]
  | none => []

/-- The text of a member that may be absent. -/
def textMember (name : String) : Option String → List (String × Json)
  | some value => [(name, string value)]
  | none => []

/-- A character inside quotes. -/
def escape (letter : Char) : List Char :=
  if letter = '"' then ['\\', '"']
  else if letter = '\\' then ['\\', '\\']
  else if letter = '\n' then ['\\', 'n']
  else if letter = '\r' then ['\\', 'r']
  else if letter = '\t' then ['\\', 't']
  else if letter.toNat = 8 then ['\\', 'b']
  else if letter.toNat = 12 then ['\\', 'f']
  else if letter.toNat < 32 then
    ['\\', 'u', '0', '0', Nat.digitChar (letter.toNat / 16), Nat.digitChar (letter.toNat % 16)]
  else [letter]

/-- A text inside quotes. -/
def quote (text : String) : String :=
  "\"" ++ String.ofList (text.toList.flatMap escape) ++ "\""

/-- A decimal number in digits. -/
def decimalText (mantissa : Int) (exponent : Nat) : String :=
  let digits := Nat.toDigits 10 mantissa.natAbs
  let padded := List.replicate (exponent + 1 - digits.length) '0' ++ digits
  let whole := padded.take (padded.length - exponent)
  let fraction := padded.drop (padded.length - exponent)
  (if mantissa < 0 then "-" else "") ++ String.ofList whole ++ "." ++ String.ofList fraction

/-- The start of a line at a level. -/
def indent (level : Nat) : String := "\n" ++ String.ofList (List.replicate (2 * level) ' ')

mutual

/-- The printed form of a value that stands at a level. -/
def render (level : Nat) : Json → String
  | null => "null"
  | bool value => if value then "true" else "false"
  | integer value => toString value
  | decimal mantissa exponent => decimalText mantissa exponent
  | string value => quote value
  | array [] => "[]"
  | array (first :: rest) =>
    "[" ++ indent (level + 1) ++ render (level + 1) first ++ renderItems (level + 1) rest ++
      indent level ++ "]"
  | object [] => "\x7b\x7d"
  | object ((name, value) :: rest) =>
    "\x7b" ++ indent (level + 1) ++ quote name ++ ": " ++ render (level + 1) value ++
      renderMembers (level + 1) rest ++ indent level ++ "\x7d"

/-- Further elements of an array. -/
def renderItems (level : Nat) : List Json → String
  | [] => ""
  | value :: rest => "," ++ indent level ++ render level value ++ renderItems level rest

/-- Further members of an object. -/
def renderMembers (level : Nat) : List (String × Json) → String
  | [] => ""
  | (name, value) :: rest =>
    "," ++ indent level ++ quote name ++ ": " ++ render level value ++ renderMembers level rest

end

/-- The printed form of a whole value. -/
def pretty (value : Json) : String := value.render 0

end Json

end ClassAtlas
