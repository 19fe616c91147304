import ClassAtlas.Data.Firsts
import ClassAtlas.Reachability
import ClassAtlas.Rule.Definitions
import ClassAtlas.Rule.Basic

/-!
# Cycles between slices

A pattern with one capture divides packages into slices: those with the same captured text.
Slices depend on each other where their classes do. Slices that can reach each other form a
cycle, and each cycle of two or more slices is reported once.
-/

namespace ClassAtlas

/-- One slice depends on another, as a dependency of their classes shows. -/
structure SliceEdge where
  origin : String
  target : String
  shown : Dependency

/-- The patterns whose slices must not form cycles. -/
structure CycleRule where
  patterns : List PackagePattern

namespace SliceEdge

/-- The slice of a package; an empty capture is no slice. -/
def slice? (pattern : PackagePattern) (package : String) : Option String :=
  ((pattern.captures package).bind List.head?).filter (· ≠ "")

/-- The edge that a dependency shows, from a given slice. -/
def ofDependency? (pattern : PackagePattern) (graph : ClassGraph) (origin : String)
    (shown : Dependency) : Option SliceEdge :=
  ((slice? pattern (graph.packageOf shown.target)).filter (· ≠ origin)).map
    fun target => { origin, target, shown }

/-- The edges that the dependencies of a class show. -/
def ofClass (pattern : PackagePattern) (graph : ClassGraph) (node : ClassNode) : List SliceEdge :=
  match slice? pattern node.package with
  | none => []
  | some origin => (graph.dependenciesOf node.id).filterMap (ofDependency? pattern graph origin)

/-- The edges between the slices of a pattern, each shown by its first dependency. -/
def ofGraph (pattern : PackagePattern) (graph : ClassGraph) : List SliceEdge :=
  firstsBy (fun edge => (edge.origin, edge.target))
    (graph.importedClasses.flatMap (ofClass pattern graph))

/-- The slices at the ends of edges, in ascending order. -/
def slices (edges : List SliceEdge) : List String :=
  (firstsBy id (edges.flatMap fun edge => [edge.origin, edge.target])).mergeSort fun left right =>
    compare left right != .gt

/-- The slices that a slice depends on. -/
def next (edges : List SliceEdge) (slice : String) : List String :=
  (edges.filter fun edge => edge.origin = slice).map SliceEdge.target

/-- The slices that a slice reaches in one or more steps. -/
def reached (edges : List SliceEdge) (slice : String) : List String :=
  Reachability.successors (next edges) (slices edges).length slice

/-- The slices that reach a slice and are reached by it, in ascending order. A slice outside
every cycle has none. -/
def component (edges : List SliceEdge) (slice : String) : List String :=
  (slices edges).filter fun other =>
    (reached edges slice).contains other && (reached edges other).contains slice

/-- The cycles, each in ascending order, in the order of their first slices. -/
def cycles (edges : List SliceEdge) : List (List String) :=
  ((slices edges).map fun slice => (slice, component edges slice)).filterMap
    fun (slice, members) => if members.head? = some slice then some members else none

/-- The edges inside a cycle, in the order of its slices. -/
def within (edges : List SliceEdge) (cycle : List String) : List SliceEdge :=
  cycle.flatMap fun origin => cycle.filterMap fun target =>
    edges.find? fun edge => edge.origin = origin && edge.target = target

/-- The text of an edge with the dependency that shows it. -/
def text (graph : ClassGraph) (edge : SliceEdge) : String :=
  edge.origin ++ " -> " ++ edge.target ++ ": " ++ graph.sentence edge.shown

/-- Where an edge is shown. -/
def location (graph : ClassGraph) (edge : SliceEdge) : Location :=
  match graph.classes[edge.shown.origin]? with
  | some node => node.locate edge.shown.line
  | none => { className := edge.origin }

end SliceEdge

namespace CycleRule

/-- The code of the rule. -/
def code : String := "CYCLE001"

/-- The name of the rule. -/
def name : String := "package-cycle"

/-- What the rule does. -/
def description : String := "Detects dependency cycles between package slices"

/-- The number of edges listed for a cycle. -/
def shownEdges : Nat := 5

/-- The rule of definitions. -/
def ofDefinitions (definitions : List String) : Except DefinitionError CycleRule := do
  return { patterns := ← definitions.zipIdx.mapM RuleDefinitions.slicePattern }

/-- The violation by a cycle. -/
def violation (graph : ClassGraph) (pattern : PackagePattern) (edges : List SliceEdge)
    (cycle : List String) : Violation :=
  let inside := SliceEdge.within edges cycle
  { code, rule := name, severity := .error
    location :=
      match inside with
      | edge :: _ => edge.location graph
      | [] => { className := cycle.headD "" }
    message :=
      "Slices of '" ++ pattern.text ++ "' form a dependency cycle: " ++ ", ".intercalate cycle
    suggestion := some ("; ".intercalate ((inside.take shownEdges).map (SliceEdge.text graph))) }

/-- The violations by cycles between the slices of a pattern. -/
def checkPattern (graph : ClassGraph) (pattern : PackagePattern) : List Violation :=
  let edges := SliceEdge.ofGraph pattern graph
  (SliceEdge.cycles edges).map (violation graph pattern edges)

/-- The violations in a graph. -/
def check (rule : CycleRule) (graph : ClassGraph) : List Violation :=
  rule.patterns.flatMap (checkPattern graph)

/-- The cycle rule among all rules. -/
def toRule (rule : CycleRule) : Rule := { name, code, description, check := rule.check }

end CycleRule

end ClassAtlas
