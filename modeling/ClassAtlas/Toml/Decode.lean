import ClassAtlas.Data.Fields
import ClassAtlas.Toml.Value

/-!
# Reading values of a document

Each reader accepts one shape of value. A record is a table of named fields or an array of
fields in order. A date or time also passes for a table whose one entry holds its text.
-/

namespace ClassAtlas.Toml.Value

/-- The name of the one entry of a date or time that is taken for a table. -/
def datetimeKey : String := "$__toml_private_datetime"

/-- A text. -/
def text? : Value → Option String
  | string text => some text
  | _ => none

/-- A truth value. -/
def boolean? : Value → Option Bool
  | boolean value => some value
  | _ => none

/-- An integer. -/
def integer? : Value → Option Int
  | integer value => some value
  | _ => none

/-- An integer that is not negative. -/
def nat? : Value → Option Nat
  | integer value => if 0 ≤ value then some value.toNat else none
  | _ => none

/-- The elements of an array, each read in one way. -/
def list? {α : Type} (decode : Value → Option α) : Value → Option (List α)
  | array values => values.mapM decode
  | _ => none

/-- The entries of a table, each read in one way. -/
def entries? {α : Type} (decode : Value → Option α) : Value → Option (List (String × α))
  | table entries => entries.mapM fun (name, value) => (decode value).map fun found => (name, found)
  | _ => none

/-- A choice by name: the name itself, or a table with that one key, whose value is empty. -/
def choice? {α : Type} (named : String → Option α) : Value → Option α
  | string name => named name
  | table [(name, table [])] => named name
  | table [(name, array [])] => named name
  | _ => none

/-- The entries of a value that is taken for a table. -/
def tableEntries? : Value → Option (List (String × Value))
  | table entries => some entries
  | datetime value => some [(datetimeKey, string value.text)]
  | _ => none

/-- The fields of a record. -/
def fields? : Value → Option (Fields Value)
  | array values => some (.positional values)
  | value => value.tableEntries?.map .named

mutual

/-- A value of any shape. A table that stands for a date or time becomes one, and a malformed
one of these is refused. -/
def any? : Value → Option Value
  | array values => (anyItems? values).map array
  | table ((name, first) :: rest) =>
    if name = datetimeKey then
      match first, rest with
      | string text, [] => (Datetime.parse? text).map datetime
      | _, _ => none
    else do
      let first ← any? first
      return table ((name, first) :: (← anyEntries? rest))
  | value => some value

/-- Elements of any shape. -/
def anyItems? : List Value → Option (List Value)
  | [] => some []
  | value :: rest => do return (← any? value) :: (← anyItems? rest)

/-- Entries of any shape. -/
def anyEntries? : List (String × Value) → Option (List (String × Value))
  | [] => some []
  | (name, value) :: rest => do return (name, ← any? value) :: (← anyEntries? rest)

end

end ClassAtlas.Toml.Value
