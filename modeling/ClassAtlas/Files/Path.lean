import ClassAtlas.Name

/-!
# Paths

A path is a text with slashes between names. Empty names and single dots mean nothing. A path
that starts with a slash is absolute.
-/

namespace ClassAtlas.Path

/-- The pieces of a path between slashes. -/
def pieces (path : String) : List String :=
  (path.toList.splitOn '/').map String.ofList

/-- The names of a path: its pieces without empty ones and single dots. -/
def names (path : String) : List String :=
  (pieces path).filter fun piece => piece ≠ "" && piece ≠ "."

/-- Whether a path starts at the root. -/
def isAbsolute (path : String) : Bool := path.toList.head? = some '/'

/-- A path followed from a directory's path. An absolute path stands for itself. -/
def join (directory path : String) : String :=
  if isAbsolute path || directory = "" then path
  else if directory.toList.getLast? = some '/' then directory ++ path
  else directory ++ "/" ++ path

/-- The last name of a path, unless it leads upwards. -/
def fileName? (path : String) : Option String :=
  (names path).getLast?.filter (· ≠ "..")

/-- The letters after the last dot of the last name. A name whose only dot stands first has no
extension. -/
def extension? (path : String) : Option String := do
  let (before, after) ← Name.splitLast '.' (← fileName? path).toList
  if before.isEmpty then none else some (String.ofList after)

end ClassAtlas.Path
