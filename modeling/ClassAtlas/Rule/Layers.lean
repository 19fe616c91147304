import ClassAtlas.Data.Firsts
import ClassAtlas.Rule.Definitions
import ClassAtlas.Rule.Basic

/-!
# Layers

A package belongs to the first layer with a pattern that accepts it. A class of one layer may
depend on classes of its own layer, of the layers that are allowed for it, and of no layer at
all. Any other dependency is reported, once for each class depended on.
-/

namespace ClassAtlas

/-- A layer with its patterns. -/
structure Layer where
  name : String
  patterns : List PackagePattern

namespace Layer

/-- Read the patterns of a layer. -/
def ofDefinition (definition : LayerDefinition) : Except DefinitionError Layer := do
  let patterns ← definition.packages.mapM (PackagePattern.parseAt (.layer definition.name))
  return { name := definition.name, patterns }

/-- Whether a package belongs to a layer by one of its patterns. -/
def accepts (layer : Layer) (package : String) : Bool :=
  layer.patterns.any fun pattern => pattern.accepts package

/-- The name of the layer that a package belongs to. -/
def resolve? (layers : List Layer) (package : String) : Option String :=
  (layers.find? fun layer => layer.accepts package).map Layer.name

end Layer

/-- Layers, and which may depend on which. -/
structure LayerRule where
  layers : List Layer
  allowed : List (String × List String)

namespace LayerRule

/-- The code of the rule. -/
def code : String := "LAYER001"

/-- The name of the rule. -/
def name : String := "layer-dependency"

/-- What the rule does. -/
def description : String := "Restricts dependencies between layers to the configured ones"

/-- The rule of definitions. -/
def ofDefinitions (definitions : RuleDefinitions) : Except DefinitionError LayerRule := do
  let layers ← definitions.layers.mapM Layer.ofDefinition
  return { layers, allowed := definitions.dependencies }

/-- The layers that a layer may depend on besides itself. -/
def targets (rule : LayerRule) (layer : String) : List String :=
  ((rule.allowed.find? fun entry => entry.1 = layer).map Prod.snd).getD []

/-- Whether a layer may depend on another. -/
def allows (rule : LayerRule) (origin target : String) : Bool :=
  origin = target || (rule.targets origin).contains target

/-- The layer that a class of a layer must not depend on, if the dependency breaks the rule. -/
def forbidden? (rule : LayerRule) (graph : ClassGraph) (origin : String)
    (dependency : Dependency) : Option String :=
  (Layer.resolve? rule.layers (graph.packageOf dependency.target)).filter
    fun target => !rule.allows origin target

/-- The hint which layers would be allowed. -/
def hint (rule : LayerRule) (layer : String) : String :=
  let targets := rule.targets layer
  "layer '" ++ layer ++ "' may depend on: " ++
    (if targets.isEmpty then "none" else ", ".intercalate targets)

/-- The violation by a dependency from a layer to another. -/
def violation (rule : LayerRule) (graph : ClassGraph) (node : ClassNode) (origin target : String)
    (dependency : Dependency) : Violation :=
  { code, rule := name, severity := .error
    location := node.locate dependency.line
    message :=
      origin ++ " -> " ++ target ++ " dependency not allowed: " ++ graph.sentence dependency
    suggestion := some (rule.hint origin) }

/-- The violations by one class. -/
def checkClass (rule : LayerRule) (graph : ClassGraph) (node : ClassNode) : List Violation :=
  match Layer.resolve? rule.layers node.package with
  | none => []
  | some origin =>
    (firstsBy Dependency.target (graph.dependenciesOf node.id)).filterMap fun dependency =>
      (rule.forbidden? graph origin dependency).map fun target =>
        rule.violation graph node origin target dependency

/-- The violations in a graph. -/
def check (rule : LayerRule) (graph : ClassGraph) : List Violation :=
  graph.importedClasses.flatMap (rule.checkClass graph)

/-- The layer rule among all rules. -/
def toRule (rule : LayerRule) : Rule := { name, code, description, check := rule.check }

end LayerRule

end ClassAtlas
