import ClassAtlas.Command.Run

/-!
# The command line program

Loads the files that a run reads into a file tree, runs, writes what the run leaves behind, and
prints. What is read depends on the settings, so the files are loaded twice: first for the
settings, then for the locations that they name.
-/

namespace ClassAtlas.Command

/-- Load a file, or a directory with all below it. -/
partial def loadNode (path : String) : IO (Option FileNode) := do
  let place := (← IO.currentDir) / path
  if ← place.isDir then
    let mut node := FileNode.empty
    for found in ← place.readDir do
      if let some inner ← loadNode (Path.join path found.fileName) then
        node := .put inner [found.fileName] node
    return some node
  else if ← place.pathExists then
    return some (.file (← IO.FS.readBinFile place).toList)
  else
    return none

/-- Load what stands at a path into a tree. -/
def loadPath (tree : FileTree) (path : String) : IO FileTree := do
  if path.isEmpty then return tree
  match ← loadNode path with
  | some node => return { tree with root := .put node (tree.namesFromRoot path) tree.root }
  | none => return tree

/-- Write a file. -/
def writeFile (path : String) (bytes : List UInt8) : IO Unit :=
  IO.FS.writeBinFile path ⟨bytes.toArray⟩

end ClassAtlas.Command

open ClassAtlas Command in
/-- Run the command that the arguments name. -/
def main (arguments : List String) : IO UInt32 := do
  let environment : Environment :=
    { config := ← IO.getEnv "ARCH_GRAPH_CONFIG"
      configDirectory := ← IO.getEnv "ARCH_GRAPH_CONFIG_DIR"
      home := ← IO.getEnv "HOME" }
  let current := Path.names (← IO.currentDir).toString
  let bare := FileTree.makeDirectory { root := .empty, current } "."
  let first ← (pathsRead bare environment arguments).foldlM loadPath bare
  let tree ← (pathsRead first environment arguments).foldlM loadPath first
  let outcome := run tree environment arguments
  outcome.written.forM fun (path, bytes) => writeFile path bytes
  IO.print outcome.output
  if let some message := outcome.failure then IO.eprintln ("Error: " ++ message)
  if outcome.status = 2 then IO.eprintln "Usage: arch-graph [OPTIONS] <COMMAND>"
  return outcome.status.toUInt32
