/-!
# Scanning from the front of a text

A scanner reads something from the front of a text and leaves the rest, or finds nothing. A
scanner that finds nothing leaves no trace, so another can be tried in its place.
-/

namespace ClassAtlas.Toml

/-- Text scanned from the front: what was read and what follows, or nothing. -/
abbrev Scanner := StateT (List Char) Option

namespace Scanner

/-- One given character. -/
def letter (expected : Char) : Scanner Unit := fun text =>
  match text with
  | found :: rest => if found = expected then some ((), rest) else none
  | [] => none

/-- One character that passes a test. -/
def letterWhere (test : Char → Bool) : Scanner Char := fun text =>
  match text with
  | found :: rest => if test found then some (found, rest) else none
  | [] => none

/-- A given text. -/
def word (expected : String) : Scanner Unit := expected.toList.forM letter

/-- As many characters as pass a test. -/
def many (test : Char → Bool) : Scanner (List Char) := fun text =>
  some (text.takeWhile test, text.dropWhile test)

/-- As many characters as pass a test, but at least one. -/
def some1 (test : Char → Bool) : Scanner (List Char) := do
  let found ← many test
  if found.isEmpty then failure else return found

/-- What a scanner finds, if it finds something. -/
def optional {α : Type} (scanner : Scanner α) : Scanner (Option α) := fun text =>
  match scanner text with
  | some (value, rest) => some (some value, rest)
  | none => some (none, text)

/-- The next character, without reading it. -/
def peek : Scanner (Option Char) := fun text => some (text.head?, text)

/-- Repeat a scanner until it finds nothing. The scanner is one that reads at least a character
whenever it finds something, and so the length of the text bounds the rounds. -/
def repeated {α : Type} (scanner : Scanner α) : Scanner (List α) := fun text =>
  go text.length text
where
  /-- Repeat at most so often. -/
  go : Nat → List Char → Option (List α × List Char)
    | 0, text => some ([], text)
    | rounds + 1, text =>
      match scanner text with
      | none => some ([], text)
      | some (value, rest) => (go rounds rest).map fun (values, rest) => (value :: values, rest)

/-- The value of a whole text. -/
def whole? {α : Type} (scanner : Scanner α) (text : List Char) : Option α :=
  match scanner text with
  | some (value, []) => some value
  | _ => none

/-- The number that decimal digits write. -/
def number (digits : List Char) : Nat :=
  digits.foldl (fun value digit => 10 * value + (digit.toNat - '0'.toNat)) 0

/-- A number of exactly so many digits. -/
def digits (count : Nat) : Scanner Nat := do
  let found ← (List.replicate count ()).mapM fun _ => letterWhere Char.isDigit
  return number found

end Scanner

end ClassAtlas.Toml
