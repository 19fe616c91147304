import ClassAtlas.Rule.Cycles
import ClassAtlas.Rule.Denied
import ClassAtlas.Rule.Layers

/-!
# The catalogue of rules

All rules that definitions can ask for, and the rules that they do ask for.
-/

namespace ClassAtlas

/-- A rule that definitions can ask for, and the tables that do so. -/
structure RuleInfo where
  code : String
  name : String
  description : String
  table : String
  deriving DecidableEq, Repr

/-- Every rule. -/
def RuleInfo.all : List RuleInfo :=
  [{ code := LayerRule.code, name := LayerRule.name, description := LayerRule.description
     table := "[[layers]] + [dependencies]" },
   { code := DenyRule.code, name := DenyRule.name, description := DenyRule.description
     table := "[[deny-package-dep]]" },
   { code := CycleRule.code, name := CycleRule.name, description := CycleRule.description
     table := "[[cycles]]" }]

namespace RuleDefinitions

/-- The rules that valid definitions ask for; a part without entries asks for none. -/
def rules (definitions : RuleDefinitions) : Except DefinitionError (List Rule) := do
  definitions.validate
  let layers ← LayerRule.ofDefinitions definitions
  let denials ← DenyRule.ofDefinitions definitions.denied
  let cycles ← CycleRule.ofDefinitions definitions.cycles
  return (if definitions.layers.isEmpty then [] else [layers.toRule]) ++
    (if definitions.denied.isEmpty then [] else [denials.toRule]) ++
    (if definitions.cycles.isEmpty then [] else [cycles.toRule])

end RuleDefinitions

end ClassAtlas
