import ClassAtlas.Pattern.PackagePattern
import ClassAtlas.Settings

/-!
# Rule definitions

Layers with the layers they may depend on, dependencies between packages that are denied, and
slices that must not form cycles, as a document defines them. `validate` says whether rules can
be built from them, and otherwise what the first problem is.
-/

namespace ClassAtlas

/-- A layer and the packages that belong to it. -/
structure LayerDefinition where
  name : String
  packages : List String
  deriving DecidableEq, Repr

/-- Packages that must not depend on others. -/
structure DenyDefinition where
  origin : String
  targets : List String
  message : Option String := none
  severity : Option Severity := none
  deriving DecidableEq, Repr

/-- The rule definitions of a document. -/
structure RuleDefinitions where
  layers : List LayerDefinition := []
  dependencies : List (String × List String) := []
  denied : List DenyDefinition := []
  cycles : List String := []
  deriving DecidableEq, Repr

/-- The place of a pattern among the definitions. -/
inductive PatternPlace
  | layer (name : String)
  | denyOrigin (index : Nat)
  | denyTarget (index : Nat)
  | slices (index : Nat)
  deriving DecidableEq, Repr

/-- The text for a place. -/
def PatternPlace.text : PatternPlace → String
  | layer name => "layers." ++ name
  | denyOrigin index => s!"deny-package-dep[{index}].from"
  | denyTarget index => s!"deny-package-dep[{index}].to"
  | slices index => s!"cycles[{index}].slices"

/-- Why no rules can be built from definitions. -/
inductive DefinitionError
  | unreadable
  | malformed
  | pattern (place : PatternPlace) (error : PatternError)
  | layerTwice (layer : String)
  | layerWithoutPackages (layer : String)
  | unknownLayer (layer : String)
  | unknownTarget (layer target : String)
  | selfDependency (layer : String)
  | layerWithoutEntry (layer : String)
  | denyWithoutTarget (index : Nat)
  | wrongCaptures (index : Nat) (text : String)
  deriving DecidableEq, Repr

namespace DefinitionError

/-- What is inconsistent. -/
def detail : DefinitionError → String
  | unreadable | malformed | pattern .. => ""
  | layerTwice layer => "layer '" ++ layer ++ "' is defined twice"
  | layerWithoutPackages layer => "layer '" ++ layer ++ "' has no packages"
  | unknownLayer layer => "dependencies." ++ layer ++ ": unknown layer"
  | unknownTarget layer target => "dependencies." ++ layer ++ ": unknown dep '" ++ target ++ "'"
  | selfDependency layer => "dependencies." ++ layer ++ ": self-dependency"
  | layerWithoutEntry layer => "layer '" ++ layer ++ "' has no entry in [dependencies]"
  | denyWithoutTarget index => s!"deny-package-dep[{index}]: 'to' is empty"
  | wrongCaptures index text =>
    s!"cycles[{index}]: '" ++ text ++ "' must contain exactly one capture group"

/-- The wording of a problem with definitions. -/
def message : DefinitionError → String
  | unreadable => "failed to read"
  | malformed => "invalid config"
  | pattern place error => place.text ++ ": " ++ error.message
  | other => "config validation: " ++ other.detail

end DefinitionError

/-- Read a pattern, naming its place if it is none. -/
def PackagePattern.parseAt (place : PatternPlace) (text : String) :
    Except DefinitionError PackagePattern :=
  match PackagePattern.parse text with
  | .ok pattern => .ok pattern
  | .error error => .error (.pattern place error)

namespace RuleDefinitions

open Toml (Value)

/-- Whether no rule is defined at all. -/
def isEmpty (definitions : RuleDefinitions) : Bool :=
  definitions.layers.isEmpty && definitions.denied.isEmpty && definitions.cycles.isEmpty

/-- The names of the layers. -/
def layerNames (definitions : RuleDefinitions) : List String :=
  definitions.layers.map LayerDefinition.name

/-- The layers that a layer may depend on. -/
def allowed? (definitions : RuleDefinitions) (layer : String) : Option (List String) :=
  (definitions.dependencies.find? fun entry => entry.1 = layer).map Prod.snd

/-- Check layers in order; their names must differ, and each needs packages. -/
def validateLayers : List String → List LayerDefinition → Except DefinitionError Unit
  | _, [] => .ok ()
  | seen, layer :: rest => do
    if layer.name ∈ seen then throw (.layerTwice layer.name)
    if layer.packages.isEmpty then throw (.layerWithoutPackages layer.name)
    layer.packages.forM fun package => do
      let _ ← PackagePattern.parseAt (.layer layer.name) package
    validateLayers (layer.name :: seen) rest

/-- Check what one layer may depend on: other known layers. -/
def validateDependencies (names : List String) :
    String × List String → Except DefinitionError Unit
  | (layer, targets) => do
    if layer ∉ names then throw (.unknownLayer layer)
    targets.forM fun target => do
      if target ∉ names then throw (.unknownTarget layer target)
    if layer ∈ targets then throw (.selfDependency layer)

/-- Check a denied dependency: it needs targets. -/
def validateDenied : DenyDefinition × Nat → Except DefinitionError Unit
  | (definition, index) => do
    let _ ← PackagePattern.parseAt (.denyOrigin index) definition.origin
    if definition.targets.isEmpty then throw (.denyWithoutTarget index)
    definition.targets.forM fun target => do
      let _ ← PackagePattern.parseAt (.denyTarget index) target

/-- The pattern of slices, which captures one thing. -/
def slicePattern : String × Nat → Except DefinitionError PackagePattern
  | (text, index) => do
    let pattern ← PackagePattern.parseAt (.slices index) text
    if pattern.captureCount ≠ 1 then throw (.wrongCaptures index text)
    return pattern

/-- Check all definitions. -/
def validate (definitions : RuleDefinitions) : Except DefinitionError Unit := do
  validateLayers [] definitions.layers
  definitions.dependencies.forM (validateDependencies definitions.layerNames)
  definitions.layers.forM fun layer => do
    if (definitions.allowed? layer.name).isNone then throw (.layerWithoutEntry layer.name)
  definitions.denied.zipIdx.forM validateDenied
  definitions.cycles.zipIdx.forM fun cycle => do
    let _ ← slicePattern cycle

/-! ## Reading definitions -/

/-- Read a layer. -/
def layer? (value : Value) : Option LayerDefinition := do
  let fields ← value.fields?
  let name ← fields.required "name" 0 Value.text?
  let packages ← fields.required "packages" 1 (Value.list? Value.text?)
  return { name, packages }

/-- Read a denied dependency. -/
def denied? (value : Value) : Option DenyDefinition := do
  let fields ← value.fields?
  let origin ← fields.required "from" 0 Value.text?
  let targets ← fields.required "to" 1 (Value.list? Value.text?)
  let message ← fields.withDefault "message" 2 none fun value => value.text?.map some
  let severity ← fields.withDefault "severity" 3 none
    fun value => (value.choice? Severity.ofWord?).map some
  return { origin, targets, message, severity }

/-- Read the pattern of slices. -/
def cycle? (value : Value) : Option String := do
  (← value.fields?).required "slices" 0 Value.text?

/-- Read the definitions of a document's top table. -/
def ofEntries? (entries : List (String × Value)) : Option RuleDefinitions := do
  let fields := Fields.named entries
  let layers ← fields.withDefault "layers" 0 [] (Value.list? layer?)
  let dependencies ← fields.withDefault "dependencies" 1 []
    (Value.entries? (Value.list? Value.text?))
  let denied ← fields.withDefault "deny-package-dep" 2 [] (Value.list? denied?)
  let cycles ← fields.withDefault "cycles" 3 [] (Value.list? cycle?)
  return { layers, dependencies, denied, cycles }

/-- Read definitions. -/
def parse (text : String) : Except DefinitionError RuleDefinitions :=
  match (Toml.parse? text).bind ofEntries? with
  | some definitions => .ok definitions
  | none => .error .malformed

end RuleDefinitions

end ClassAtlas
