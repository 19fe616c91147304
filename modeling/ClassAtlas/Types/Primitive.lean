/-!
# Primitive types

The nine primitive types of the virtual machine, `void` among them. Each has a
keyword, by which source text names it, and a letter, by which descriptors do.
-/

namespace ClassAtlas

/-- A primitive type; `void` counts as one because it stands where a type is
expected, as a return type. -/
inductive Primitive
  | void
  | boolean
  | byte
  | char
  | short
  | int
  | long
  | float
  | double
  deriving DecidableEq, Repr

namespace Primitive

/-- Every primitive type once. -/
def all : List Primitive :=
  [void, boolean, byte, char, short, int, long, float, double]

/-- The keyword of the source language. -/
def keyword : Primitive → String
  | void => "void"
  | boolean => "boolean"
  | byte => "byte"
  | char => "char"
  | short => "short"
  | int => "int"
  | long => "long"
  | float => "float"
  | double => "double"

/-- The letter that stands for the type in a descriptor. -/
def letter : Primitive → Char
  | void => 'V'
  | boolean => 'Z'
  | byte => 'B'
  | char => 'C'
  | short => 'S'
  | int => 'I'
  | long => 'J'
  | float => 'F'
  | double => 'D'

/-- The primitive type with a given keyword. -/
def ofKeyword? (word : String) : Option Primitive :=
  all.find? fun kind => kind.keyword = word

/-- The primitive type with a given letter. -/
def ofLetter? (symbol : Char) : Option Primitive :=
  all.find? fun kind => kind.letter = symbol

/-- The primitive type whose descriptor is the whole text. -/
def ofDescriptor? : List Char → Option Primitive
  | [symbol] => ofLetter? symbol
  | _ => none

/-- The primitive type written as a keyword or as a letter. -/
def ofText? (text : String) : Option Primitive :=
  (ofKeyword? text).or (ofDescriptor? text.toList)

/-- No two primitive types have the same letter. -/
theorem letter_injective {left right : Primitive} (same : left.letter = right.letter) :
    left = right := by
  revert same
  cases left <;> cases right <;> decide

/-- A letter names at most the type that carries it. -/
theorem ofLetter?_eq_some_iff {symbol : Char} {kind : Primitive} :
    ofLetter? symbol = some kind ↔ kind.letter = symbol := by
  constructor
  · intro found
    simpa using List.find?_some found
  · rintro rfl
    cases kind <;> decide

/-- A keyword names at most the type that carries it. -/
theorem ofKeyword?_eq_some_iff {word : String} {kind : Primitive} :
    ofKeyword? word = some kind ↔ kind.keyword = word := by
  constructor
  · intro found
    simpa using List.find?_some found
  · rintro rfl
    cases kind <;> decide

end Primitive

end ClassAtlas
