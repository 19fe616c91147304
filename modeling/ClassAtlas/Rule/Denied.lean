import ClassAtlas.Data.Firsts
import ClassAtlas.Rule.Definitions
import ClassAtlas.Rule.Basic

/-!
# Denied dependencies

Each entry denies classes of some packages to depend on classes of other packages. A denied
dependency is reported once for each entry and each class depended on.
-/

namespace ClassAtlas

/-- One denial. -/
structure Denial where
  origin : PackagePattern
  targets : List PackagePattern
  message : Option String
  severity : Option Severity

/-- All denials. -/
structure DenyRule where
  denials : List Denial

namespace Denial

/-- Read the patterns of a denial, whose place among all is given. -/
def ofDefinition : DenyDefinition × Nat → Except DefinitionError Denial
  | (definition, index) => do
    let origin ← PackagePattern.parseAt (.denyOrigin index) definition.origin
    let targets ← definition.targets.mapM (PackagePattern.parseAt (.denyTarget index))
    return { origin, targets, message := definition.message, severity := definition.severity }

/-- The first pattern that denies a dependency. -/
def pattern? (denial : Denial) (graph : ClassGraph) (dependency : Dependency) :
    Option PackagePattern :=
  denial.targets.find? fun pattern => pattern.accepts (graph.packageOf dependency.target)

/-- The message about a dependency that a pattern denies. -/
def text (denial : Denial) (graph : ClassGraph) (dependency : Dependency)
    (pattern : PackagePattern) : String :=
  denial.message.getD
    (graph.sentence dependency ++ ", but '" ++ denial.origin.text ++ "' must not depend on '" ++
      pattern.text ++ "'")

end Denial

namespace DenyRule

/-- The code of the rule. -/
def code : String := "PKG001"

/-- The name of the rule. -/
def name : String := "deny-package-dep"

/-- What the rule does. -/
def description : String := "Forbids dependencies from one set of packages to another"

/-- The rule of definitions. -/
def ofDefinitions (definitions : List DenyDefinition) : Except DefinitionError DenyRule := do
  return { denials := ← definitions.zipIdx.mapM Denial.ofDefinition }

/-- The violation by a dependency that a pattern denies. -/
def violation (graph : ClassGraph) (denial : Denial) (node : ClassNode) (dependency : Dependency)
    (pattern : PackagePattern) : Violation :=
  { code, rule := name
    severity := denial.severity.getD .error
    location := node.locate dependency.line
    message := denial.text graph dependency pattern }

/-- The violations of one denial by one class. -/
def checkClass (graph : ClassGraph) (denial : Denial) (node : ClassNode) : List Violation :=
  if denial.origin.accepts node.package then
    (firstsBy Dependency.target (graph.dependenciesOf node.id)).filterMap fun dependency =>
      (denial.pattern? graph dependency).map (violation graph denial node dependency)
  else []

/-- The violations in a graph. -/
def check (rule : DenyRule) (graph : ClassGraph) : List Violation :=
  rule.denials.flatMap fun denial => graph.importedClasses.flatMap (checkClass graph denial)

/-- The deny rule among all rules. -/
def toRule (rule : DenyRule) : Rule := { name, code, description, check := rule.check }

end DenyRule

end ClassAtlas
