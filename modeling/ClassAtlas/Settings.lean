import ClassAtlas.Finding.Violation
import ClassAtlas.Import
import ClassAtlas.Toml.Decode
import ClassAtlas.Toml.Document

/-!
# Settings

Settings say what to import, at which severity a check fails, and for each rule whether it
runs, with which severity, and with which further options. They are read from a document;
unknown keys of it are left to others.
-/

namespace ClassAtlas

/-- The settings of one rule. -/
structure RuleSettings where
  enabled : Option Bool := none
  severity : Option Severity := none
  options : List (String × Toml.Value) := []

/-- What to import, and where to search for further classes. -/
structure ImportSettings where
  classpath : List String := []
  dependencies : List String := []
  exclude : List String := []
  checksums : Bool := true
  resolveMissing : Bool := true
  parallelism : Option Nat := none
  deriving DecidableEq, Repr

/-- All settings. -/
structure Settings where
  failOn : Option Severity := none
  imports : ImportSettings := {}
  rules : List (String × RuleSettings) := []

/-- Why settings cannot be had from a file. -/
inductive SettingsError
  | unreadable
  | malformed
  deriving DecidableEq, Repr

namespace RuleSettings

open Toml (Value)

/-- An option by its key. -/
def option? (settings : RuleSettings) (key : String) : Option Value :=
  (settings.options.find? fun entry => entry.1 = key).map Prod.snd

/-- An option that is a truth value, or the given one. -/
def flag (settings : RuleSettings) (key : String) (fallback : Bool) : Bool :=
  ((settings.option? key).bind Value.boolean?).getD fallback

/-- The texts among the elements of an option. -/
def texts (settings : RuleSettings) (key : String) : List String :=
  match settings.option? key with
  | some (.array values) => values.filterMap Value.text?
  | _ => []

/-- The text of a value; a date or time has a text too. -/
def valueText? : Value → Option String
  | .string text => some text
  | .datetime value => some value.text
  | _ => none

/-- An option that is a text. -/
def text? (settings : RuleSettings) (key : String) : Option String :=
  (settings.option? key).bind valueText?

/-- An option that is an array of texts. -/
def textList? (settings : RuleSettings) (key : String) : Option (List String) :=
  (settings.option? key).bind (Value.list? valueText?)

/-- An option that is an integer. -/
def integer? (settings : RuleSettings) (key : String) : Option Int :=
  (settings.option? key).bind Value.integer?

/-- An option that is an integer of 8 bits. -/
def byte? (settings : RuleSettings) (key : String) : Option Nat :=
  ((settings.option? key).bind Value.nat?).filter (· < 256)

/-- Read the settings of a rule. Keys without a fixed meaning are options. -/
def ofValue? (value : Value) : Option RuleSettings := do
  let entries ← value.tableEntries?
  let fields := Fields.named entries
  let enabled ← fields.withDefault "enabled" 0 none fun value => value.boolean?.map some
  let severity ← fields.withDefault "severity" 1 none
    fun value => (value.choice? Severity.ofWord?).map some
  let options ← Value.anyEntries?
    (entries.filter fun entry => entry.1 ≠ "enabled" && entry.1 ≠ "severity")
  return { enabled, severity, options }

end RuleSettings

namespace ImportSettings

open Toml (Value)

/-- The options of an import. -/
def options (settings : ImportSettings) : ImportOptions :=
  { checksums := settings.checksums
    resolveMissing := settings.resolveMissing
    exclude := settings.exclude }

/-- Read the settings of an import. -/
def ofValue? (value : Value) : Option ImportSettings := do
  let fields ← value.fields?
  let classpath ← fields.withDefault "classpath" 0 [] (Value.list? Value.text?)
  let dependencies ← fields.withDefault "dependencies" 1 [] (Value.list? Value.text?)
  let exclude ← fields.withDefault "exclude" 2 [] (Value.list? Value.text?)
  let checksums ← fields.withDefault "checksums" 3 true Value.boolean?
  let resolveMissing ← fields.withDefault "resolve_missing_dependencies" 4 true Value.boolean?
  let parallelism ← fields.withDefault "parallelism" 5 none fun value => value.nat?.map some
  return { classpath, dependencies, exclude, checksums, resolveMissing, parallelism }

end ImportSettings

namespace Settings

open Toml (Value)

/-- The settings of a rule. -/
def rule? (settings : Settings) (name : String) : Option RuleSettings :=
  (settings.rules.find? fun entry => entry.1 = name).map Prod.snd

/-- Whether a rule runs. Rules run unless they are switched off. -/
def isEnabled (settings : Settings) (name : String) : Bool :=
  ((settings.rule? name).bind RuleSettings.enabled).getD true

/-- The severity that replaces the one of a rule's violations. -/
def severity? (settings : Settings) (name : String) : Option Severity :=
  (settings.rule? name).bind RuleSettings.severity

/-- The severity at which a check fails. -/
def threshold (settings : Settings) : Severity := settings.failOn.getD .error

/-- Read the settings of a document's top table. -/
def ofEntries? (entries : List (String × Value)) : Option Settings := do
  let fields := Fields.named entries
  let failOn ← fields.withDefault "fail_on" 0 none
    fun value => (value.choice? Severity.ofWord?).map some
  let imports ← fields.withDefault "import" 1 {} ImportSettings.ofValue?
  let rules ← fields.withDefault "rules" 2 [] (Value.entries? RuleSettings.ofValue?)
  return { failOn, imports, rules }

/-- Read settings. -/
def parse (text : String) : Except SettingsError Settings :=
  match (Toml.parse? text).bind ofEntries? with
  | some settings => .ok settings
  | none => .error .malformed

end Settings

end ClassAtlas
