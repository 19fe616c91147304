import ClassAtlas.Data.Fields
import ClassAtlas.Data.Json
import ClassAtlas.Diagnostic
import ClassAtlas.Finding.Violation

/-!
# Reports

A report holds the violations of a check, the number of classes that were checked, and the
diagnostics of the import before it. Reports can be joined, summed up in a line, written as
structured values and read back.
-/

namespace ClassAtlas

/-- The outcome of a check. -/
structure Report where
  violations : List Violation := []
  classesChecked : Nat := 0
  diagnostics : List Diagnostic := []
  deriving DecidableEq, Repr

namespace Report

/-- Join two reports. -/
def join (left right : Report) : Report :=
  { violations := left.violations ++ right.violations
    classesChecked := left.classesChecked + right.classesChecked
    diagnostics := left.diagnostics ++ right.diagnostics }

/-- The violations of one severity. -/
def bySeverity (report : Report) (severity : Severity) : List Violation :=
  report.violations.filter fun violation => violation.severity = severity

/-- The number of violations of one severity. -/
def count (report : Report) (severity : Severity) : Nat := (report.bySeverity severity).length

/-- Whether some violation reaches a threshold. -/
def fails (report : Report) (threshold : Severity) : Bool :=
  report.violations.any fun violation => violation.severity.reaches threshold

/-- The totals in a line. -/
def summary (report : Report) : String :=
  let errors := report.count .error
  let warnings := report.count .warning
  let infos := report.count .info
  s!"Found {errors} error(s), {warnings} warning(s), {infos} info(s) in " ++
    s!"{report.classesChecked} class(es)"

/-- The violations that reach a threshold, as the message of a failed test. -/
def testText (report : Report) (threshold : Severity) : String :=
  let failing := report.violations.filter fun violation => violation.severity.reaches threshold
  s!"\n=== arch-graph: {failing.length} violation(s) ===\n\n" ++
    String.join (failing.map fun violation => violation.block ++ "\n") ++ report.summary ++ "\n"

end Report

/-! ## Structured form -/

/-- A location as a structured value; unknown parts are left out. -/
def Location.toJson (location : Location) : Json :=
  .object ([("class", .string location.className)] ++
    Json.textMember "source_file" location.sourceFile ++ Json.natMember "line" location.line)

/-- A violation as a structured value; absent hints are left out. -/
def Violation.toJson (violation : Violation) : Json :=
  .object ([("code", .string violation.code), ("rule", .string violation.rule),
    ("severity", .string violation.severity.word), ("location", violation.location.toJson),
    ("message", .string violation.message)] ++
    Json.textMember "suggestion" violation.suggestion ++ Json.textMember "doc_ref" violation.docRef)

/-- A diagnostic as a structured value. -/
def Diagnostic.toJson (diagnostic : Diagnostic) : Json :=
  .object [("kind", .string diagnostic.kind.key), ("uri", .string diagnostic.uri),
    ("message", .string diagnostic.message)]

/-- A report as a structured value. -/
def Report.toJson (report : Report) : Json :=
  .object [("violations", .array (report.violations.map Violation.toJson)),
    ("classes_checked", .integer report.classesChecked),
    ("import_diagnostics", .array (report.diagnostics.map Diagnostic.toJson))]

/-! ## Reading the structured form -/

namespace Json

/-- The text of a string. -/
def text? : Json → Option String
  | string value => some value
  | _ => none

/-- A natural number below a limit. -/
def natBelow? (limit : Nat) : Json → Option Nat
  | integer value => if 0 ≤ value && value < limit then some value.toNat else none
  | _ => none

/-- The elements of an array, each read in one way. -/
def list? {α : Type} (decode : Json → Option α) : Json → Option (List α)
  | array values => values.mapM decode
  | _ => none

/-- A value that may be null. -/
def nullable? {α : Type} (decode : Json → Option α) : Json → Option (Option α)
  | null => some none
  | value => (decode value).map some

/-- A choice by name: the name itself, or an object with that one member, which is null. -/
def choice? {α : Type} (named : String → Option α) : Json → Option α
  | string name => named name
  | object [(name, null)] => named name
  | _ => none

/-- The fields of a record of at most so many fields. -/
def fields? (count : Nat) : Json → Option (Fields Json)
  | object members => some (.named members)
  | array values => if values.length ≤ count then some (.positional values) else none
  | _ => none

end Json

/-- Read a location. -/
def Location.ofJson? (value : Json) : Option Location := do
  let fields ← value.fields? 3
  let className ← fields.required "class" 0 Json.text?
  let sourceFile ← fields.withDefault "source_file" 1 none (Json.nullable? Json.text?)
  let line ← fields.withDefault "line" 2 none (Json.nullable? (Json.natBelow? (Nat.pow 2 32)))
  return { className, sourceFile, line }

/-- Read a violation. -/
def Violation.ofJson? (value : Json) : Option Violation := do
  let fields ← value.fields? 7
  let code ← fields.required "code" 0 Json.text?
  let rule ← fields.required "rule" 1 Json.text?
  let severity ← fields.required "severity" 2 (Json.choice? Severity.ofWord?)
  let location ← fields.required "location" 3 Location.ofJson?
  let message ← fields.required "message" 4 Json.text?
  let suggestion ← fields.withDefault "suggestion" 5 none (Json.nullable? Json.text?)
  let docRef ← fields.withDefault "doc_ref" 6 none (Json.nullable? Json.text?)
  return { code, rule, severity, location, message, suggestion, docRef }

/-- The kind of diagnostic with a given key. -/
def DiagnosticKind.ofKey? (key : String) : Option DiagnosticKind :=
  [DiagnosticKind.read, .parse, .duplicateClass, .resolve].find? fun kind => kind.key = key

/-- Read a diagnostic. -/
def Diagnostic.ofJson? (value : Json) : Option Diagnostic := do
  let fields ← value.fields? 3
  let kind ← fields.required "kind" 0 (Json.choice? DiagnosticKind.ofKey?)
  let uri ← fields.required "uri" 1 Json.text?
  let message ← fields.required "message" 2 Json.text?
  return { kind, uri, message }

/-- Read a report. Diagnostics may be left out. -/
def Report.ofJson? (value : Json) : Option Report := do
  let fields ← value.fields? 3
  let violations ← fields.required "violations" 0 (Json.list? Violation.ofJson?)
  let classesChecked ← fields.required "classes_checked" 1 (Json.natBelow? (Nat.pow 2 64))
  let diagnostics ← fields.withDefault "import_diagnostics" 2 [] (Json.list? Diagnostic.ofJson?)
  return { violations, classesChecked, diagnostics }

end ClassAtlas
