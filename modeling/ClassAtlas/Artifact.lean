import ClassAtlas.Source

/-!
# Artifacts

An artifact is one class file: its origin, and its bytes or the reason why they cannot be
had.
-/

namespace ClassAtlas

/-- Why something cannot be read. -/
inductive ReadFault
  | notFound
  | notDirectory
  | isDirectory
  | noBackingPlace (name : String)
  | unreadable (reason : String)
  deriving DecidableEq, Repr

/-- The wording of a read fault. -/
def ReadFault.message : ReadFault → String
  | notFound => "No such file or directory (os error 2)"
  | notDirectory => "Not a directory (os error 20)"
  | isDirectory => "Is a directory (os error 21)"
  | noBackingPlace name => "in-memory artifact '" ++ name ++ "' has no backing location"
  | unreadable reason => reason

/-- One class file. -/
structure Artifact where
  origin : Origin
  content : Except ReadFault (List UInt8)

/-- An artifact of bytes that are at hand. -/
def Artifact.ofBytes (name : String) (bytes : List UInt8) : Artifact :=
  { origin := .memory name, content := .ok bytes }

end ClassAtlas
