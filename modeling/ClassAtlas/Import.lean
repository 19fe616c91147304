import ClassAtlas.Graph.Link

/-!
# Importing class files

An import reads artifacts in order into a pool, completes the pool and links it. An
artifact that cannot be read or parsed leaves a diagnostic.
-/

namespace ClassAtlas

/-- What an import is to do besides collecting records. -/
structure ImportOptions where
  checksums : Bool := true
  resolveMissing : Bool := true
  exclude : List String := []
  deriving DecidableEq, Repr

/-- The outcome of an import. -/
structure ImportResult where
  graph : ClassGraph
  diagnostics : List Diagnostic

/-- Read the class record of an artifact. -/
def Artifact.record (artifact : Artifact) (checksums : Bool) :
    Except Diagnostic (ClassRecord × Source) :=
  let uri := artifact.origin.uri
  match artifact.content with
  | .error fault => .error { kind := .read, uri, message := fault.message }
  | .ok bytes =>
    match ClassFile.read bytes with
    | .error fault => .error { kind := .parse, uri, message := fault.message }
    | .ok record =>
      .ok (record, .ofBytes artifact.origin bytes record.sourceFile checksums)

/-- Take an artifact into a pool. -/
def ClassPool.collect (pool : ClassPool) (artifact : Artifact) : ClassPool :=
  match artifact.record pool.checksums with
  | .ok (record, source) => (pool.add record source).1
  | .error diagnostic => pool.report diagnostic

/-- Import artifacts. -/
def importArtifacts (options : ImportOptions) (resolver : Resolver)
    (artifacts : List Artifact) : ImportResult :=
  let collected := artifacts.foldl ClassPool.collect (ClassPool.empty options.checksums)
  let completed :=
    if options.resolveMissing then collected.complete resolver
    else collected.completeWithoutResolver
  let (graph, diagnostics) := completed.link
  { graph, diagnostics }

end ClassAtlas
