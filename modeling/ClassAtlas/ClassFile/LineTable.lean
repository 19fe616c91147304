/-!
# Source lines of a method body

An entry says that from some offset on the code comes from some source line. The
line of an offset is that of the entry with the greatest start at or before it, and of
several such entries the greatest line.
-/

namespace ClassAtlas.ClassFile

/-- From `start` on, the code comes from `line`. -/
structure LineEntry where
  start : Nat
  line : Nat
  deriving DecidableEq, Repr

/-- Entries in order of start, then of line. -/
def LineEntry.le (left right : LineEntry) : Bool :=
  left.start < right.start || left.start = right.start && left.line ≤ right.line

/-- The entries of a method body in order. -/
structure LineTable where
  entries : List LineEntry

namespace LineTable

/-- The table of entries given in any order. -/
def ofEntries (entries : List LineEntry) : LineTable :=
  { entries := entries.mergeSort LineEntry.le }

/-- The line of an offset, or zero if no entry covers it. -/
def lineAt (table : LineTable) (offset : Nat) : Nat :=
  match (table.entries.takeWhile fun entry => entry.start ≤ offset).getLast? with
  | some entry => entry.line
  | none => 0

/-- The least line of the body. -/
def firstLine (table : LineTable) : Option Nat :=
  (table.entries.map LineEntry.line).min?

end LineTable

end ClassAtlas.ClassFile
