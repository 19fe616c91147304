import ClassAtlas.Archive.Zip
import ClassAtlas.Files.FileTree
import ClassAtlas.Import
import ClassAtlas.Pattern.Glob

/-!
# Class files in directories and archives

A location is a directory, searched with all below it, an archive, a single class file, or bytes
at hand. Locations list their class files as artifacts, except those that patterns exclude and
the descriptors of modules and packages, which hold no types. A classpath finds the class file of
one class in the first of its directories and archives that has it.
-/

namespace ClassAtlas

/-- Where class files are listed from. -/
inductive ClassLocation
  | directory (path : String)
  | archive (path : String)
  | file (path : String)
  | bytes (name : String) (content : List UInt8)

/-- Why a location cannot be listed. -/
inductive LocationError
  | unreadable (path reason : String)
  | badArchive (path : String)
  | badPattern (error : GlobError)
  deriving DecidableEq, Repr

/-- The wording of a location's error. -/
def LocationError.message : LocationError → String
  | unreadable path reason => "IO error on " ++ path ++ ": " ++ reason
  | badArchive path => "Invalid archive " ++ path
  | badPattern error => "Invalid glob pattern: " ++ error.message

/-- Whether a path names an archive. -/
def isArchivePath (path : String) : Bool :=
  match Path.extension? path with
  | some extension => extension = "jar" || extension = "zip"
  | none => false

/-- Whether a name is that of a class file with a type. -/
def isTypeFile (name : String) : Bool :=
  Path.extension? name = some "class" && !name.endsWith "module-info.class" &&
    !name.endsWith "package-info.class"

/-- Whether some pattern excludes a name. -/
def isExcluded (exclude : List Glob) (name : String) : Bool :=
  exclude.any fun glob => glob.accepts name

namespace Origin

/-- The bytes behind an origin. -/
def read (tree : FileTree) : Origin → Except ReadFault (List UInt8)
  | file path => tree.read path
  | archiveEntry path name => do
    match Archive.Opened.ofBytes? (← tree.read path) with
    | none => throw (.unreadable "invalid Zip archive")
    | some archive =>
      match archive.find? name with
      | none => throw (.unreadable "specified file not found in archive")
      | some entry => (archive.read entry).mapError fun fault => .unreadable fault.message
  | memory name => throw (.noBackingPlace name)

/-- The artifact of an origin that is read when it is needed. -/
def artifact (tree : FileTree) (origin : Origin) : Artifact :=
  { origin, content := origin.read tree }

/-- The checksum of the bytes behind an origin. -/
def checksum (tree : FileTree) (origin : Origin) : Checksum :=
  match origin with
  | memory _ => .notSupported
  | _ =>
    match origin.read tree with
    | .ok bytes => .ofBytes true bytes
    | .error _ => .undetermined

/-- The source of an origin, read again for its checksum if checksums are wanted. -/
def source (tree : FileTree) (origin : Origin) (fileName : Option String) (checksums : Bool) :
    Source :=
  { uri := origin.uri, fileName
    checksum := if checksums then origin.checksum tree else .disabled }

end Origin

namespace ClassLocation

/-- The location of a path: directories, archives by their extension, and else single files. -/
def ofPath (tree : FileTree) (path : String) : ClassLocation :=
  if tree.isDirectory path then directory path
  else if isArchivePath path then archive path
  else file path

/-- The text of a location. -/
def text : ClassLocation → String
  | directory path | archive path | file path => path
  | bytes name _ => "memory:" ++ name

/-- The artifact of a file below a directory, unless it is excluded. -/
def fileArtifact? (path : String) (exclude : List Glob) (names : List String)
    (content : List UInt8) : Option Artifact :=
  let relative := "/".intercalate names
  let name := String.ofList (Name.respell '\\' '/' relative.toList)
  if isTypeFile name && !isExcluded exclude name then
    some { origin := .file (Path.join path relative), content := .ok content }
  else none

/-- The artifact of an entry of an archive, unless it is excluded. Every entry has to be one that
can be read, also one that is passed over. -/
def entryArtifact? (path : String) (exclude : List Glob) (archive : Archive.Opened)
    (entry : Archive.Entry) : Except LocationError (Option Artifact) :=
  if (archive.dataStart? entry).isNone then .error (.badArchive path)
  else if entry.isFile && isTypeFile entry.name && !entry.name.startsWith "META-INF/" &&
      !isExcluded exclude entry.name then
    match archive.read entry with
    | .ok content => .ok (some { origin := .archiveEntry path entry.name, content := .ok content })
    | .error fault => .error (.unreadable path fault.message)
  else .ok none

/-- The artifacts of an archive in the order of its entries. -/
def archiveArtifacts (tree : FileTree) (exclude : List Glob) (path : String) :
    Except LocationError (List Artifact) :=
  match tree.read path with
  | .error .isDirectory => .error (.badArchive path)
  | .error fault => .error (.unreadable path fault.message)
  | .ok content =>
    match Archive.Opened.ofBytes? content with
    | none => .error (.badArchive path)
    | some opened => do
      return (← opened.entries.mapM (entryArtifact? path exclude opened)).filterMap id

/-- The artifacts of a location. -/
def artifacts (tree : FileTree) (exclude : List Glob) :
    ClassLocation → Except LocationError (List Artifact)
  | directory path =>
    match tree.find path with
    | .ok (.directory entries) =>
      .ok ((FileNode.filesOf entries).filterMap fun (names, content) =>
        fileArtifact? path exclude names content)
    | _ => .error (.unreadable path "no such directory")
  | archive path => archiveArtifacts tree exclude path
  | file path =>
    if tree.isFile path then .ok [(Origin.file path).artifact tree]
    else .error (.unreadable path "no such class file")
  | bytes name content => .ok [.ofBytes name content]

end ClassLocation

/-- Read patterns that exclude class files. -/
def excludePatterns (patterns : List String) : Except LocationError (List Glob) :=
  patterns.mapM fun pattern => (Glob.parse pattern).mapError .badPattern

/-- Import the class files of locations. -/
def importLocations (tree : FileTree) (options : ImportOptions) (resolver : Resolver)
    (locations : List ClassLocation) : Except LocationError ImportResult := do
  let exclude ← excludePatterns options.exclude
  let artifacts ← locations.mapM (ClassLocation.artifacts tree exclude)
  return importArtifacts options resolver artifacts.flatten

namespace Classpath

/-- Search a class file, given by its path below a directory or in an archive. -/
def locateIn (tree : FileTree) (relative path : String) : Except ResolveError (Option Artifact) :=
  match tree.find path with
  | .ok (.directory _) =>
    let found := Path.join path relative
    .ok (if tree.isFile found then some ((Origin.file found).artifact tree) else none)
  | .ok (.file content) =>
    if !isArchivePath path then .ok none
    else
      match Archive.Opened.ofBytes? content with
      | none => .error (.unreadable path "invalid Zip archive")
      | some archive =>
        match archive.find? relative with
        | none => .ok none
        | some entry =>
          match archive.read entry with
          | .ok bytes => .ok (some { origin := .archiveEntry path relative, content := .ok bytes })
          | .error fault => .error (.unreadable path fault.message)
  | .error _ => .ok none

/-- The first of several places that has a class file. -/
def locateFirst (tree : FileTree) (relative : String) :
    List String → Except ResolveError (Option Artifact)
  | [] => .ok none
  | path :: rest => do
    match ← locateIn tree relative path with
    | some artifact => return some artifact
    | none => locateFirst tree relative rest

/-- Search the class file of a class. Only classes have one. -/
def locate (tree : FileTree) (paths : List String) (name : String) :
    Except ResolveError (Option Artifact) :=
  match TypeName.ofClassName name with
  | .error problem => .error (.spelling problem)
  | .ok type =>
    match type, type.internal? with
    | .object _, some internal => locateFirst tree (internal ++ ".class") paths
    | _, _ => .ok none

/-- The contents that a place can supply. A directory may lead to any file of the tree. -/
def contents (tree : FileTree) (path : String) : List (List UInt8) :=
  match tree.find path with
  | .ok (.directory _) => tree.root.files.map Prod.snd
  | .ok (.file content) =>
    match Archive.Opened.ofBytes? content with
    | some archive => archive.entries.filterMap fun entry => (archive.read entry).toOption
    | none => []
  | .error _ => []

/-- What is found in a place is one of its contents. -/
theorem mem_contents_of_locateIn {tree : FileTree} {relative path : String} {artifact : Artifact}
    {bytes : List UInt8} (found : locateIn tree relative path = .ok (some artifact))
    (content : artifact.content = .ok bytes) : bytes ∈ contents tree path := by
  rw [locateIn] at found
  rw [contents]
  cases place : tree.find path with
  | error problem => simp [place] at found
  | ok node =>
    cases node with
    | directory entries =>
      simp only [place, Except.ok.injEq] at found
      split at found
      · cases found
        exact FileTree.mem_files_of_read content
      · simp at found
    | file archiveBytes =>
      simp only [place] at found ⊢
      split at found
      · simp at found
      · cases opened : Archive.Opened.ofBytes? archiveBytes with
        | none => simp [opened] at found
        | some archive =>
          simp only [opened] at found
          cases named : archive.find? relative with
          | none => simp [named] at found
          | some entry =>
            simp only [named] at found
            cases read : archive.read entry with
            | error fault => simp [read] at found
            | ok stored =>
              simp only [read, Except.ok.injEq, Option.some.injEq] at found
              subst found
              cases content
              exact List.mem_filterMap.mpr
                ⟨entry, List.mem_of_find?_eq_some named, by simp [read, Except.toOption]⟩

/-- What a classpath finds is a content of one of its places. -/
theorem mem_contents_of_locate {tree : FileTree} {paths : List String} {name : String}
    {artifact : Artifact} {bytes : List UInt8} (found : locate tree paths name = .ok (some artifact))
    (content : artifact.content = .ok bytes) : bytes ∈ paths.flatMap (contents tree) := by
  have inFirst (relative : String) (paths : List String)
      (found : locateFirst tree relative paths = .ok (some artifact)) :
      bytes ∈ paths.flatMap (contents tree) := by
    induction paths with
    | nil => simp [locateFirst] at found
    | cons path rest inductionHypothesis =>
      rw [locateFirst] at found
      rw [List.flatMap_cons, List.mem_append]
      cases here : locateIn tree relative path with
      | error problem => simp [here, bind, Except.bind] at found
      | ok answer =>
        cases answer with
        | some other =>
          simp only [here, bind, Except.bind, pure, Except.pure, Except.ok.injEq,
            Option.some.injEq] at found
          exact Or.inl (mem_contents_of_locateIn (found ▸ here) content)
        | none =>
          simp only [here, bind, Except.bind] at found
          exact Or.inr (inductionHypothesis found)
  rw [locate] at found
  split at found
  · simp at found
  · split at found
    · exact inFirst _ paths found
    · simp at found

/-- The resolver of a classpath. -/
def resolver (tree : FileTree) (paths : List String) : Resolver :=
  .ofContents (locate tree paths)
    ⟨paths.flatMap (contents tree), fun _ _ _ => mem_contents_of_locate⟩

end Classpath

end ClassAtlas
