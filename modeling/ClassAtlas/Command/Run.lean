import ClassAtlas.Command.Output
import ClassAtlas.Command.Starter

/-!
# Running commands

A run sees the arguments, the environment and a file tree. Its outcome is a status, what is
printed, a message where it failed, and the files that are to be written.

Settings come from the file that the arguments or the environment name, else from the nearest
directory upwards that has a settings file, else from the user's own directory, else they are
the built-in ones.
-/

namespace ClassAtlas.Command

/-- The parts of the environment that matter. -/
structure Environment where
  config : Option String := none
  configDirectory : Option String := none
  home : Option String := none
  deriving DecidableEq, Repr

/-- What a run leaves behind. -/
structure Outcome where
  status : Nat := 0
  output : String := ""
  failure : Option String := none
  written : List (String × List UInt8) := []
  deriving DecidableEq, Repr

/-- Why a command failed. -/
inductive Failure
  | settings (path : String)
  | definitions (path : String)
  | invalidRules
  | preparation
  | analysis
  | packagePattern
  | importing
  | configExists
  | unwritable (fault : ReadFault)
  deriving DecidableEq, Repr

/-- The wording of a failure. -/
def Failure.message : Failure → String
  | settings path => "Failed to load config: " ++ path
  | definitions path => "Failed to load rules: " ++ path
  | invalidRules => "Invalid rule configuration"
  | preparation => "Failed to build analyzer"
  | analysis => "Analysis failed"
  | packagePattern => "Invalid package pattern"
  | importing => "Import failed"
  | configExists =>
    "Configuration file already exists at arch-graph.toml. Use --force to overwrite."
  | unwritable fault => fault.message

/-- The name of the settings file. -/
def configName : String := "arch-graph.toml"

/-- The directories from a directory upwards to the root. -/
def upwards (names : List String) : List (List String) :=
  (List.range (names.length + 1)).reverse.map names.take

/-- The settings files of a project, nearest first. -/
def projectConfigs (tree : FileTree) : List String :=
  (upwards tree.current).flatMap fun names =>
    [configName, "." ++ configName].map (Path.join (FileTree.absolute names))

/-- The settings file of the user. -/
def userConfig? (environment : Environment) : Option String :=
  (environment.configDirectory.or
    (environment.home.map fun home => Path.join home ".arch-graph")).map
    fun directory => Path.join directory "config.toml"

/-- The settings file of a run. -/
def configPath? (tree : FileTree) (environment : Environment) (explicit : Option String) :
    Option String :=
  explicit.or ((projectConfigs tree ++ (userConfig? environment).toList).find? tree.isFile)

/-- The settings and rule definitions of a run. -/
def load (tree : FileTree) (path : Option String) : Except Failure (Settings × RuleDefinitions) :=
  match path with
  | none => .ok ({}, {})
  | some path => do
    let settings ← (Settings.ofFile tree path).mapError fun _ => .settings path
    let definitions ← (RuleDefinitions.ofFile tree path).mapError fun _ => .definitions path
    return (settings, definitions)

/-- A text without blanks around it. -/
def trimmed (letters : List Char) : String :=
  String.ofList
    ((letters.dropWhile PackagePattern.isBlank).reverse.dropWhile PackagePattern.isBlank).reverse

/-- The rules whose name or code is listed. -/
def selectRules (rules : List Rule) : Option String → List Rule
  | none => rules
  | some list =>
    let names := (list.toList.splitOn ',').map trimmed
    rules.filter fun rule => names.contains rule.name || names.contains rule.code

/-- Check the rules. -/
def runCheck (tree : FileTree) (config : Option String) (input : AnalysisInput) (form : OutputForm)
    (selection : Option String) : Except Failure Outcome := do
  let (settings, definitions) ← load tree config
  let rules ← definitions.rules.mapError fun _ => .invalidRules
  let analysis ← (Analysis.prepare settings (selectRules rules selection) input).mapError
    fun _ => .preparation
  let report ← (analysis.run tree).mapError fun _ => .analysis
  return { status := if report.fails settings.threshold then 1 else 0
           output := printReport report form }

/-- List classes. -/
def runClasses (tree : FileTree) (config : Option String) (input : AnalysisInput)
    (package : Option String) (all : Bool) (form : OutputForm) : Except Failure Outcome := do
  let (settings, _) ← load tree config
  let analysis ← (Analysis.prepare settings [] input).mapError fun _ => .preparation
  let predicate ← (package.mapM Predicate.ofPackage).mapError fun _ => .packagePattern
  let result ← (analysis.imported tree).mapError fun _ => .importing
  return { output := printClasses result (listed result.graph predicate all) form }

/-- Write the starter document. -/
def runInit (tree : FileTree) (force : Bool) : Except Failure Outcome := do
  let found := tree.find configName
  if found.isOk && !force then throw .configExists
  if tree.isDirectory configName then throw (.unwritable .isDirectory)
  return { output := starterHints, written := [(configName, starterDocument.toUTF8.toList)] }

/-- Run a task. -/
def runTask (tree : FileTree) (environment : Environment) (invocation : Invocation) :
    Except Failure Outcome :=
  let config := configPath? tree environment invocation.config
  match invocation.task with
  | .check input form rules => runCheck tree config input form rules
  | .classes input package all form => runClasses tree config input package all form
  | .listRules => .ok { output := rulesText }
  | .init force => runInit tree force

/-- The name and version. -/
def versionText : String := line "arch-graph 0.1.0"

/-- How to use the commands. -/
def helpText : String :=
  String.join ([
    "Architecture rules for compiled JVM classes",
    "",
    "Usage: arch-graph [OPTIONS] <COMMAND>",
    "",
    "Commands:",
    "  check       Import classes and check the configured rules",
    "  classes     Import classes and list them",
    "  list-rules  List available rules",
    "  init        Initialize configuration file"].map line)

/-- Run the command that arguments name. -/
def run (tree : FileTree) (environment : Environment) (arguments : List String) : Outcome :=
  match parse environment.config arguments with
  | .error .usage => { status := 2 }
  | .error .help => { output := helpText }
  | .error .version => { output := versionText }
  | .ok invocation =>
    match runTask tree environment invocation with
    | .ok outcome => outcome
    | .error failure => { status := 1, failure := some failure.message }

/-- The paths that a run reads, as far as the files of a tree tell. -/
def pathsRead (tree : FileTree) (environment : Environment) (arguments : List String) :
    List String :=
  match parse environment.config arguments with
  | .error _ => []
  | .ok invocation =>
    let candidates := invocation.config.toList ++ projectConfigs tree ++
      (userConfig? environment).toList ++ [configName]
    let imports :=
      match load tree (configPath? tree environment invocation.config) with
      | .ok (settings, _) => settings.imports
      | .error _ => {}
    let input : AnalysisInput :=
      match invocation.task with
      | .check input _ _ | .classes input _ _ _ => input
      | .listRules | .init _ => {}
    candidates ++ input.classpath ++ input.dependencies ++ imports.classpath ++ imports.dependencies

end ClassAtlas.Command
