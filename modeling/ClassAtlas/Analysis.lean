import ClassAtlas.Classpath
import ClassAtlas.Rule.Catalogue

/-!
# Analysis

An analysis imports locations and checks rules over the graph. Locations that are given directly
come before those of the settings, and patterns of the settings before those given directly.
-/

namespace ClassAtlas

/-- Why an analysis has no outcome. -/
inductive AnalysisError
  | noClasspath
  | location (error : LocationError)
  deriving DecidableEq, Repr

/-- The wording of an analysis that failed. -/
def AnalysisError.message : AnalysisError → String
  | noClasspath => "No classpath configured: pass locations or set [import].classpath"
  | location error => error.message

/-- What to analyse besides what the settings say. -/
structure AnalysisInput where
  classpath : List String := []
  dependencies : List String := []
  exclude : List String := []
  deriving DecidableEq, Repr

/-- An analysis that is ready to run. -/
structure Analysis where
  classpath : List String
  dependencies : List String
  options : ImportOptions
  settings : Settings
  rules : List Rule

/-- Read the settings of a file. -/
def Settings.ofFile (tree : FileTree) (path : String) : Except SettingsError Settings :=
  match tree.readText? path with
  | some text => parse text
  | none => .error .unreadable

/-- Read the rule definitions of a file. -/
def RuleDefinitions.ofFile (tree : FileTree) (path : String) :
    Except DefinitionError RuleDefinitions :=
  match tree.readText? path with
  | some text => parse text
  | none => .error .unreadable

namespace Analysis

/-- Prepare an analysis. Some location has to be known. -/
def prepare (settings : Settings) (rules : List Rule) (input : AnalysisInput) :
    Except AnalysisError Analysis :=
  let imports := settings.imports
  let classpath := input.classpath ++ imports.classpath
  if classpath.isEmpty then .error .noClasspath
  else
    .ok {
      classpath
      dependencies := input.dependencies ++ imports.dependencies
      options := { imports.options with exclude := imports.exclude ++ input.exclude }
      settings
      rules }

/-- Import all locations. -/
def imported (analysis : Analysis) (tree : FileTree) : Except AnalysisError ImportResult :=
  (importLocations tree analysis.options (Classpath.resolver tree analysis.dependencies)
    (analysis.classpath.map (ClassLocation.ofPath tree))).mapError .location

/-- Import all locations and check the rules. -/
def run (analysis : Analysis) (tree : FileTree) : Except AnalysisError Report := do
  let result ← analysis.imported tree
  let report := checkGraph analysis.settings analysis.rules result.graph
  return { report with diagnostics := result.diagnostics }

end Analysis

end ClassAtlas
