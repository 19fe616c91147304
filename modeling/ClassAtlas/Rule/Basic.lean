import ClassAtlas.Finding.Report
import ClassAtlas.Graph.ClassGraph
import ClassAtlas.Settings

/-!
# Rules and checks

A rule looks at a class graph and lists violations. A check runs the rules that the settings
leave enabled, gives violations the severity that the settings ask for, and puts them in the
order of their locations.
-/

namespace ClassAtlas

/-- A rule over class graphs. -/
structure Rule where
  name : String
  code : String
  description : String := ""
  severity : Severity := .error
  check : ClassGraph → List Violation

namespace Rule

/-- The violations of a rule with the severity that the settings ask for. -/
def violations (rule : Rule) (settings : Settings) (graph : ClassGraph) : List Violation :=
  match settings.severity? rule.name with
  | some severity => (rule.check graph).map fun violation => { violation with severity }
  | none => rule.check graph

end Rule

/-- Run the enabled rules over a graph. -/
def checkGraph (settings : Settings) (rules : List Rule) (graph : ClassGraph) : Report :=
  let enabled := rules.filter fun rule => settings.isEnabled rule.name
  { violations :=
      (enabled.flatMap fun rule => rule.violations settings graph).mergeSort Violation.le
    classesChecked := graph.importedClasses.length }

/-- Where a class has a dependency. -/
def ClassNode.locate (node : ClassNode) (line : Option Nat) : Location :=
  .known node.name (node.source?.bind Source.fileName) line

/-- What a dependency says, in words: origin, kind and target. -/
def ClassGraph.sentence (graph : ClassGraph) (dependency : Dependency) : String :=
  graph.className dependency.origin ++ " " ++ dependency.kind.phrase ++ " " ++
    graph.className dependency.target

/-- The package of a numbered class. -/
def ClassGraph.packageOf (graph : ClassGraph) (id : ClassId) : String :=
  (graph.classes[id]?.map ClassNode.package).getD ""

end ClassAtlas
