import ClassAtlas.Artifact
import ClassAtlas.Files.Path

/-!
# File trees

A file tree holds the files that a run can see. Directories keep their entries in the order of
their names. Paths are followed from the working directory, piece by piece: every piece but the
last has to lead to a directory, and a path that ends in a slash or a dot means a directory.
-/

namespace ClassAtlas

/-- A file with its bytes, or a directory with its entries. -/
inductive FileNode
  | file (bytes : List UInt8)
  | directory (entries : List (String × FileNode))

namespace FileNode

/-- The directory without entries. -/
def empty : FileNode := directory []

/-- The entry of a directory. -/
def child? (entries : List (String × FileNode)) (name : String) : Option FileNode :=
  (entries.find? fun row => row.1 = name).map Prod.snd

/-- Put an entry in its place among entries in order; one of the same name is replaced. -/
def putEntry (name : String) (node : FileNode) :
    List (String × FileNode) → List (String × FileNode)
  | [] => [(name, node)]
  | (other, found) :: rest =>
    if name < other then (name, node) :: (other, found) :: rest
    else if name = other then (name, node) :: rest
    else (other, found) :: putEntry name node rest

/-- Follow one piece of a path. The directories passed so far are given, the current one first. -/
def follow : List FileNode → String → Except ReadFault (List FileNode)
  | directory entries :: above, piece =>
    if piece = "" || piece = "." then .ok (directory entries :: above)
    else if piece = ".." then .ok (if above.isEmpty then [directory entries] else above)
    else
      match child? entries piece with
      | some node => .ok (node :: directory entries :: above)
      | none => .error .notFound
  | _, _ => .error .notDirectory

/-- What stands at the end of a path's pieces. -/
def reach (root : FileNode) (pieces : List String) : Except ReadFault FileNode := do
  return (← pieces.foldlM follow [root]).headD root

/-- Put a node at a path of names, with directories on the way. A file on the way gives way. -/
def put (node : FileNode) : List String → FileNode → FileNode
  | [], _ => node
  | name :: rest, directory entries =>
    directory (putEntry name (put node rest ((child? entries name).getD empty)) entries)
  | name :: rest, file _ => directory [(name, put node rest empty)]

/-- Take away what stands at a path of names. -/
def remove : List String → FileNode → FileNode
  | [name], directory entries => directory (entries.filter fun row => row.1 ≠ name)
  | name :: rest, directory entries =>
    directory (entries.map fun row => if row.1 = name then (row.1, remove rest row.2) else row)
  | _, node => node

mutual

/-- The files below a node in order, each with its path of names from the node. -/
def files : FileNode → List (List String × List UInt8)
  | file bytes => [([], bytes)]
  | directory entries => filesOf entries

/-- The files of the entries of a directory. -/
def filesOf : List (String × FileNode) → List (List String × List UInt8)
  | [] => []
  | (name, node) :: rest =>
    (files node).map (fun (names, bytes) => (name :: names, bytes)) ++ filesOf rest

end

/-- A node stands somewhere below a root, or is the root. -/
inductive Inside (root : FileNode) : FileNode → Prop
  | root : Inside root root
  | entry {entries : List (String × FileNode)} {name : String} {node : FileNode}
      (above : Inside root (directory entries)) (listed : (name, node) ∈ entries) :
      Inside root node

/-- A file of an entry is a file of the directory, under the name of the entry. -/
theorem mem_filesOf {entries : List (String × FileNode)} {name : String} {node : FileNode}
    (listed : (name, node) ∈ entries) {names : List String} {bytes : List UInt8}
    (present : (names, bytes) ∈ node.files) : (name :: names, bytes) ∈ filesOf entries := by
  induction entries with
  | nil => simp at listed
  | cons first rest inductionHypothesis =>
    rw [filesOf, List.mem_append]
    rcases List.mem_cons.mp listed with rfl | later
    · exact Or.inl (List.mem_map.mpr ⟨(names, bytes), present, rfl⟩)
    · exact Or.inr (inductionHypothesis later)

/-- Every file inside a root is listed among the files of the root. -/
theorem Inside.mem_files {root node : FileNode} (inside : Inside root node) {names : List String}
    {bytes : List UInt8} (present : (names, bytes) ∈ node.files) :
    bytes ∈ root.files.map Prod.snd := by
  induction inside generalizing names with
  | root => exact List.mem_map.mpr ⟨(names, bytes), present, rfl⟩
  | entry _ listed inductionHypothesis =>
    rw [files] at inductionHypothesis
    exact inductionHypothesis (mem_filesOf listed present)

/-- A step along a path stays inside the root, with all directories passed so far. -/
theorem follow_inside {root : FileNode} {passed next : List FileNode} {piece : String}
    (inside : ∀ node ∈ passed, Inside root node) (step : follow passed piece = .ok next) :
    ∀ node ∈ next, Inside root node := by
  match passed with
  | [] => simp [follow] at step
  | file _ :: _ => simp [follow] at step
  | directory entries :: above =>
    have here : Inside root (directory entries) := inside _ List.mem_cons_self
    rw [follow] at step
    split at step
    · cases step
      exact inside
    · split at step
      · cases step
        split
        · simpa using here
        · exact fun node listed => inside node (List.mem_cons_of_mem _ listed)
      · split at step
        · rename_i child found
          cases step
          obtain ⟨row, isChild, rfl⟩ := Option.map_eq_some_iff.mp found
          exact List.forall_mem_cons.mpr
            ⟨.entry here (List.mem_of_find?_eq_some isChild), inside⟩
        · simp at step

/-- What stands at the end of a path is inside the root. -/
theorem reach_inside {root node : FileNode} {pieces : List String}
    (reached : root.reach pieces = .ok node) : Inside root node := by
  have walked (pieces : List String) (passed ends : List FileNode)
      (inside : ∀ node ∈ passed, Inside root node)
      (walk : pieces.foldlM follow passed = .ok ends) : ∀ node ∈ ends, Inside root node := by
    induction pieces generalizing passed with
    | nil =>
      cases walk
      exact inside
    | cons piece rest inductionHypothesis =>
      rw [List.foldlM_cons] at walk
      cases step : follow passed piece with
      | error problem => simp [step, bind, Except.bind] at walk
      | ok next =>
        simp only [step, bind, Except.bind] at walk
        exact inductionHypothesis next (follow_inside inside step) walk
  rw [reach] at reached
  cases walk : pieces.foldlM follow [root] with
  | error problem => simp [walk, bind, Except.bind] at reached
  | ok ends =>
    simp only [walk, bind, Except.bind, pure, Except.pure, Except.ok.injEq] at reached
    have inside := walked pieces [root] ends (by simpa using Inside.root) walk
    cases ends with
    | nil => exact reached ▸ .root
    | cons first rest => exact reached ▸ inside first List.mem_cons_self

end FileNode

/-- A file tree with a working directory. -/
structure FileTree where
  root : FileNode
  current : List String

namespace FileTree

/-- What stands at a path. -/
def find (tree : FileTree) (path : String) : Except ReadFault FileNode :=
  if path = "" then .error .notFound
  else if Path.isAbsolute path then tree.root.reach (Path.pieces path)
  else tree.root.reach (tree.current ++ Path.pieces path)

/-- The path of names from the root, without regard to what exists. -/
def namesFromRoot (tree : FileTree) (path : String) : List String :=
  let start := if Path.isAbsolute path then [] else tree.current
  (Path.names path).foldl
    (fun names name => if name = ".." then names.dropLast else names ++ [name]) start

/-- Whether a path leads to a directory. -/
def isDirectory (tree : FileTree) (path : String) : Bool :=
  match tree.find path with
  | .ok (.directory _) => true
  | _ => false

/-- Whether a path leads to a file. -/
def isFile (tree : FileTree) (path : String) : Bool :=
  match tree.find path with
  | .ok (.file _) => true
  | _ => false

/-- The bytes of a file. -/
def read (tree : FileTree) (path : String) : Except ReadFault (List UInt8) := do
  match ← tree.find path with
  | .file bytes => return bytes
  | .directory _ => throw .isDirectory

/-- What can be read is one of the files of the tree. -/
theorem mem_files_of_read {tree : FileTree} {path : String} {bytes : List UInt8}
    (read : tree.read path = .ok bytes) : bytes ∈ tree.root.files.map Prod.snd := by
  have inside {node : FileNode} (found : tree.find path = .ok node) :
      tree.root.Inside node := by
    rw [find] at found
    split at found
    · simp at found
    · split at found <;> exact FileNode.reach_inside found
  rw [FileTree.read] at read
  cases found : tree.find path with
  | error problem => simp [found, bind, Except.bind] at read
  | ok node =>
    cases node with
    | directory entries =>
      simp [found, bind, Except.bind, throw, throwThe, MonadExceptOf.throw] at read
    | file content =>
      simp only [found, bind, Except.bind, pure, Except.pure, Except.ok.injEq] at read
      have isFile : ([], content) ∈ (FileNode.file content).files := by simp [FileNode.files]
      exact read ▸ (inside found).mem_files isFile

/-- The text of a file in UTF-8. -/
def readText? (tree : FileTree) (path : String) : Option String :=
  match tree.read path with
  | .ok bytes => String.fromUTF8? ⟨bytes.toArray⟩
  | .error _ => none

/-- Write a file, with directories on the way. -/
def write (tree : FileTree) (path : String) (bytes : List UInt8) : FileTree :=
  { tree with root := .put (.file bytes) (tree.namesFromRoot path) tree.root }

/-- Make sure that a directory exists. -/
def makeDirectory (tree : FileTree) (path : String) : FileTree :=
  if tree.isDirectory path then tree
  else { tree with root := .put .empty (tree.namesFromRoot path) tree.root }

/-- Remove a file or a directory with all below. -/
def remove (tree : FileTree) (path : String) : FileTree :=
  { tree with root := tree.root.remove (tree.namesFromRoot path) }

/-- Change the working directory. -/
def changeTo (tree : FileTree) (path : String) : FileTree :=
  { tree with current := tree.namesFromRoot path }

/-- The path of a directory of names. -/
def absolute (names : List String) : String := "/" ++ "/".intercalate names

end FileTree

end ClassAtlas
