import ClassAtlas.Toml.Value

/-!
# Tables under construction

While a document is read, a table remembers how it came to be: by a header of its own, on the
way to the table of another header, or by a dotted key. This decides which later lines may add
to it. No key can be given twice, a header defines its table once, and dotted keys extend only
tables that dotted keys have made.
-/

namespace ClassAtlas.Toml

/-- How a table came to be. -/
inductive Standing
  | defined
  | implied
  | dotted
  deriving DecidableEq, Repr

/-- What a key stands for in a table under construction. -/
inductive Item
  | value (value : Value)
  | table (standing : Standing) (entries : List (String × Item))
  | tables (elements : List (List (String × Item)))

/-- The entries of a table under construction. -/
abbrev Entries := List (String × Item)

mutual

/-- The finished value of an item. -/
def Item.finish : Item → Value
  | .value value => value
  | .table _ entries => .table (finishEntries entries)
  | .tables elements => .array (finishTables elements)

/-- The finished entries of a table. -/
def finishEntries : List (String × Item) → List (String × Value)
  | [] => []
  | (name, item) :: rest => (name, item.finish) :: finishEntries rest

/-- The finished tables of an array. -/
def finishTables : List (List (String × Item)) → List Value
  | [] => []
  | entries :: rest => .table (finishEntries entries) :: finishTables rest

end

namespace Entries

/-- The item of a key. -/
def find? (entries : Entries) (name : String) : Option Item :=
  (List.find? (fun entry => entry.1 = name) entries).map Prod.snd

/-- Change the item of a key in its place; a new key comes last. -/
def alter (name : String) (change : Option Item → Option Item) : Entries → Option Entries
  | [] => (change none).map fun item => [(name, item)]
  | (key, item) :: rest =>
    if key = name then (change (some item)).map fun item => (key, item) :: rest
    else (alter name change rest).map ((key, item) :: ·)

/-- Change the last of some tables. -/
def alterLast (change : Entries → Option Entries) : List Entries → Option (List Entries)
  | [] => none
  | [last] => (change last).map ([·])
  | first :: rest => (alterLast change rest).map (first :: ·)

/-- Change the table at the end of a path. Tables that are absent on the way come to be with the
given standing; in an array of tables the last one is meant; a plain value ends the path, and so
does a defined table unless `passDefined` holds. -/
def descend (made : Standing) (passDefined : Bool)
    (change : Standing → Entries → Option Entries) :
    List String → Standing → Entries → Option Entries
  | [], standing, entries => change standing entries
  | name :: rest, _, entries =>
    entries.alter name fun
      | none => (descend made passDefined change rest made []).map (.table made)
      | some (.value _) => none
      | some (.table standing inner) =>
        if standing = .defined && !passDefined then none
        else (descend made passDefined change rest standing inner).map (.table standing)
      | some (.tables elements) =>
        (alterLast (descend made passDefined change rest .defined) elements).map .tables

/-- Give a key its value; a key that stands for something already is refused. -/
def insertNew (name : String) (value : Value) (entries : Entries) : Option Entries :=
  entries.alter name fun
    | none => some (.value value)
    | some _ => none

/-- Give a dotted key its value. The table it ends in has to be made by dotted keys, unless the
key has one part. -/
def assign (entries : Entries) (path : List String) (value : Value) : Option Entries :=
  match path.getLast? with
  | none => none
  | some name =>
    descend .dotted false
      (fun standing inner =>
        if path.dropLast.isEmpty || standing = .dotted then insertNew name value inner else none)
      path.dropLast .defined entries

/-- Give several dotted keys their values, in order. -/
def assignAll (entries : Entries) (assignments : List (List String × Value)) : Option Entries :=
  assignments.foldlM (fun entries (path, value) => entries.assign path value) entries

/-- Define the table of a header and fill it. A table that was only implied so far keeps its
entries. The table becomes the last entry. -/
def define (entries : Entries) (path : List String) (assignments : List (List String × Value)) :
    Option Entries :=
  match path.getLast? with
  | none => none
  | some name =>
    descend .implied true
      (fun _ inner => do
        let start ← match find? inner name with
          | none => some []
          | some (.table .implied inside) => some inside
          | some _ => none
        let filled ← assignAll start assignments
        return inner.filter (fun entry => entry.1 != name) ++ [(name, .table .defined filled)])
      path.dropLast .defined entries

/-- Add a table to the array of tables of a header. -/
def defineNext (entries : Entries) (path : List String) (assignments : List (List String × Value)) :
    Option Entries :=
  match path.getLast? with
  | none => none
  | some name =>
    descend .implied true
      (fun _ inner =>
        inner.alter name fun
          | none => do return .tables [← assignAll [] assignments]
          | some (.tables elements) => do return .tables (elements ++ [← assignAll [] assignments])
          | some _ => none)
      path.dropLast .defined entries

end Entries

end ClassAtlas.Toml
