import ClassAtlas.Command.Arguments
import ClassAtlas.Predicate

/-!
# Printed results

A check is printed as text with colours, as a structured value, or with one line for each
finding. Classes are listed in the same three forms.
-/

namespace ClassAtlas.Command

/-- A line with its line end. -/
def line (text : String) : String := text ++ "\n"

/-- A text filled up with blanks to a width. -/
def column (width : Nat) (text : String) : String :=
  text ++ String.ofList (List.replicate (width - text.length) ' ')

/-- The colours of a terminal. -/
inductive Colour
  | red
  | green
  | yellow
  | blue

/-- The start of a colour. -/
def Colour.start : Colour → String
  | red => "\x1b[31m"
  | green => "\x1b[32m"
  | yellow => "\x1b[33m"
  | blue => "\x1b[34m"

/-- A text in a colour. -/
def Colour.paint (colour : Colour) (text : String) : String :=
  colour.start ++ text ++ "\x1b[0m"

/-- The colour of a severity. -/
def severityColour : Severity → Colour
  | .error => .red
  | .warning => .yellow
  | .info => .blue

/-- A text without blanks at its end. -/
def withoutLastBlanks (letters : List Char) : List Char :=
  (letters.reverse.dropWhile (· = ' ')).reverse

/-- A text of several lines behind a mark; lines after the first stand behind another mark. -/
def hanging (first next text : String) : String :=
  let lines := (text.toList.splitOn '\n').zipIdx.map fun (letters, index) =>
    (if index = 0 then first else next) ++ String.ofList (withoutLastBlanks letters)
  "\n".intercalate lines

/-- The import diagnostics, a line for each. -/
def diagnosticLines (diagnostics : List Diagnostic) : String :=
  String.join (diagnostics.map fun diagnostic =>
    line (Colour.yellow.paint "import" ++ " " ++ diagnostic.text))

/-- A violation with its hints. -/
def violationText (violation : Violation) : String :=
  line ((severityColour violation.severity).paint violation.severity.word ++ " " ++
      violation.rule) ++
    line (hanging "  × " "  │ " violation.headline) ++
    ((violation.help?.map fun help => line (hanging "  help: " "        " help)).getD "") ++
    line ""

/-- The colour of the totals: that of the highest severity found. -/
def summaryColour (report : Report) : Colour :=
  if 0 < report.count .error then .red
  else if 0 < report.count .warning then .yellow
  else .green

/-- A report as text. -/
def reportText (report : Report) : String :=
  String.join (report.violations.map violationText) ++ diagnosticLines report.diagnostics ++
    (if report.diagnostics.isEmpty then "" else line "") ++
    line ((summaryColour report).paint report.summary)

/-- A report in a form. -/
def printReport (report : Report) : OutputForm → String
  | .text => reportText report
  | .json => line report.toJson.pretty
  | .compact =>
    String.join (report.violations.map fun violation => line violation.text) ++
      String.join (report.diagnostics.map fun diagnostic => line diagnostic.text)

/-- How a class entered the graph. -/
inductive Entrance
  | imported
  | pulledIn
  | stub
  deriving DecidableEq, Repr

/-- How a class entered the graph. -/
def Entrance.of (node : ClassNode) : Entrance :=
  if node.isStub then stub else if node.isPulledIn then pulledIn else imported

/-- The word for an entrance. -/
def Entrance.word : Entrance → String
  | imported => "imported"
  | pulledIn => "pulled-in"
  | stub => "stub"

/-- The mark of an entrance in a text; imported classes have none. -/
def Entrance.mark : Entrance → String
  | imported => ""
  | pulledIn => " " ++ Colour.blue.paint "(pulled in)"
  | stub => " " ++ Colour.yellow.paint "(stub)"

/-- The classes of a listing: no arrays, only imported ones unless all are wanted, and only those
that pass a test. -/
def listed (graph : ClassGraph) (predicate : Option Predicate) (all : Bool) : List ClassNode :=
  graph.classes.toList.filter fun node =>
    !node.type.isArray && (all || Entrance.of node = .imported) &&
      predicate.all fun test => test.test graph node

/-- The number of dependencies of a class. -/
def dependencyCount (graph : ClassGraph) (node : ClassNode) : Nat :=
  (graph.dependenciesOf node.id).length

/-- A class of a listing as text. -/
def classText (graph : ClassGraph) (node : ClassNode) : String :=
  line (column 10 node.kind.word ++ " " ++ node.name ++ (Entrance.of node).mark ++
    s!"  {dependencyCount graph node} dependencies") ++
    (node.source?.map fun source => line ("           " ++ source.uri)).getD ""

/-- A class of a listing as a structured value. -/
def classJson (graph : ClassGraph) (node : ClassNode) : Json :=
  .object ([("name", .string node.name), ("kind", .string node.kind.word),
    ("origin", .string (Entrance.of node).word)] ++
    Json.textMember "source" (node.source?.map Source.uri) ++
    [("dependencies", .integer (dependencyCount graph node))])

/-- A listing in a form. -/
def printClasses (result : ImportResult) (nodes : List ClassNode) : OutputForm → String
  | .text =>
    String.join (nodes.map (classText result.graph)) ++ diagnosticLines result.diagnostics ++
      line s!"\n{nodes.length} class(es)"
  | .json =>
    line (Json.object [("classes", .array (nodes.map (classJson result.graph))),
      ("diagnostics", .array (result.diagnostics.map Diagnostic.toJson))]).pretty
  | .compact => String.join (nodes.map fun node => line node.name)

/-- The list of all rules. -/
def rulesText : String :=
  line "Available rules:\n" ++
    line (column 10 "Code" ++ " " ++ column 20 "Name" ++ " " ++ column 30 "Config" ++
      " Description") ++
    line (String.ofList (List.replicate 100 '-')) ++
    String.join (RuleInfo.all.map fun info =>
      line (column 10 info.code ++ " " ++ column 20 info.name ++ " " ++ column 30 info.table ++
        " " ++ info.description)) ++
    line "\nRules run when their table is present in arch-graph.toml." ++
    line "\nUse --rules to filter specific rules, e.g.:" ++
    line "  arch-graph check --rules layer-dependency,package-cycle" ++
    line "  arch-graph check --rules LAYER001,PKG001"

end ClassAtlas.Command
