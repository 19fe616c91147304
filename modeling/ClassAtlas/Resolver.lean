import ClassAtlas.Artifact
import ClassAtlas.ClassFile.Reader
import ClassAtlas.Types.Spelling

/-!
# Finding class files by name

A resolver finds the class file of a class that was not imported. It may answer for any name,
but it supplies finitely many classes: only finitely many names lead to a file that holds the
class of that name. So a search that goes on from class to class comes to an end.
-/

namespace ClassAtlas

/-- Why a class cannot be found. -/
inductive ResolveError
  | isPrimitive (name : String)
  | isArray (name : String)
  | notFound (name : String)
  | spelling (problem : SpellingError)
  | unreadable (path reason : String)
  deriving DecidableEq, Repr

/-- The wording of a failed search. -/
def ResolveError.message : ResolveError → String
  | isPrimitive name => "'" ++ name ++ "' is a primitive type and has no class file"
  | isArray name => "'" ++ name ++ "' is an array type and has no class file"
  | notFound name => "class '" ++ name ++ "' not found on the classpath"
  | spelling problem => problem.message
  | unreadable path reason => "IO error on " ++ path ++ ": " ++ reason

/-- A search supplies a record for a name: it finds a file, which can be read and holds the
class of that name. -/
def Supplies (locate : String → Except ResolveError (Option Artifact)) (name : String)
    (record : ClassRecord) : Prop :=
  ∃ artifact bytes, locate name = .ok (some artifact) ∧ artifact.content = .ok bytes ∧
    ClassFile.read bytes = .ok record ∧ record.name = name

/-- A search for class files by class name, which supplies finitely many classes. -/
structure Resolver where
  locate : String → Except ResolveError (Option Artifact)
  finite : ∃ names : List String, ∀ name record, Supplies locate name record → name ∈ names

namespace Resolver

/-- A search that finds files for finitely many names. -/
def ofNames (locate : String → Except ResolveError (Option Artifact))
    (limited : ∃ names : List String, ∀ name artifact, locate name = .ok (some artifact) →
      name ∈ names) : Resolver where
  locate
  finite := by
    obtain ⟨names, listed⟩ := limited
    exact ⟨names, fun name _ ⟨artifact, _, found, _⟩ => listed name artifact found⟩

/-- A search that finds finitely many different contents, be it under ever so many names: each
content holds the class of one name only. -/
def ofContents (locate : String → Except ResolveError (Option Artifact))
    (limited : ∃ contents : List (List UInt8), ∀ name artifact bytes,
      locate name = .ok (some artifact) → artifact.content = .ok bytes → bytes ∈ contents) :
    Resolver where
  locate
  finite := by
    obtain ⟨contents, listed⟩ := limited
    refine ⟨contents.filterMap fun bytes => (ClassFile.read bytes).toOption.map ClassRecord.name,
      ?_⟩
    rintro name record ⟨artifact, bytes, found, content, read, named⟩
    refine List.mem_filterMap.mpr ⟨bytes, listed name artifact bytes found content, ?_⟩
    simp [read, Except.toOption, named]

/-- The resolver that knows no class. -/
def none : Resolver := ofNames (fun _ => .ok Option.none) ⟨[], by simp⟩

/-- The answer of a finite table; a name that is listed twice has its last answer, and names
that are not listed are unknown. -/
def answerOf (table : List (String × Except ResolveError Artifact)) (name : String) :
    Except ResolveError (Option Artifact) :=
  match table.reverse.find? fun row => row.1 = name with
  | some (_, .ok artifact) => .ok (some artifact)
  | some (_, .error problem) => .error problem
  | Option.none => .ok Option.none

/-- Only listed names have a file. -/
theorem mem_of_answerOf {table : List (String × Except ResolveError Artifact)} {name : String}
    {artifact : Artifact} (found : answerOf table name = .ok (some artifact)) :
    name ∈ table.map Prod.fst := by
  rw [answerOf] at found
  split at found
  · rename_i listed
    exact List.mem_map.mpr ⟨_, List.mem_reverse.mp (List.mem_of_find?_eq_some listed),
      by simpa using List.find?_some listed⟩
  · simp at found
  · simp at found

/-- The resolver of a finite table. -/
def ofTable (table : List (String × Except ResolveError Artifact)) : Resolver :=
  ofNames (answerOf table) ⟨table.map Prod.fst, fun _ _ => mem_of_answerOf⟩

/-- Whether a name could have a class file at all. One-letter names are classes of the
default package here, not primitive types. -/
def checkClassType (name : String) : Except ResolveError Unit :=
  match TypeName.ofClassName name with
  | .ok (.primitive _) => .error (.isPrimitive name)
  | .ok (.array _) => .error (.isArray name)
  | .ok (.object _) => .ok ()
  | .error problem => .error (.spelling problem)

end Resolver

end ClassAtlas
