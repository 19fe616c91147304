/-!
# Violations

A violation says where a rule is broken, how severe that is, and what to do about it.
Locations are ordered by class, then source file, then line, where an unknown part comes
before every known one.
-/

namespace ClassAtlas

/-- How severe a violation is. -/
inductive Severity
  | info
  | warning
  | error
  deriving DecidableEq, Repr

namespace Severity

/-- The word for a severity. -/
def word : Severity → String
  | info => "info"
  | warning => "warning"
  | error => "error"

/-- Severities in ascending order. -/
def all : List Severity := [info, warning, error]

/-- The place of a severity in the order. -/
def rank : Severity → Nat
  | info => 0
  | warning => 1
  | error => 2

/-- The severity with a given word. -/
def ofWord? (word : String) : Option Severity :=
  all.find? fun severity => severity.word = word

/-- Whether a severity is at least as high as a threshold. -/
def reaches (severity threshold : Severity) : Bool := threshold.rank ≤ severity.rank

end Severity

/-- Where a violation was found. -/
structure Location where
  className : String
  sourceFile : Option String := none
  line : Option Nat := none
  deriving DecidableEq, Repr

/-- Compare values of which either may be absent; an absent one comes first. -/
def compareOptions {α : Type} [Ord α] : Option α → Option α → Ordering
  | none, none => .eq
  | none, some _ => .lt
  | some _, none => .gt
  | some left, some right => compare left right

namespace Location

/-- A location; line zero means that no line is known. -/
def known (className : String) (sourceFile : Option String) (line : Option Nat) : Location :=
  { className, sourceFile, line := line.filter (0 < ·) }

/-- The order of locations. -/
def order (left right : Location) : Ordering :=
  (compare left.className right.className).then
    ((compareOptions left.sourceFile right.sourceFile).then
      (compareOptions left.line right.line))

/-- Whether a location does not come after another. -/
def le (left right : Location) : Bool := left.order right != .gt

/-- The text of a location. -/
def text (location : Location) : String :=
  location.className ++
    match location.sourceFile, location.line with
    | some file, some line => " (" ++ file ++ s!":{line})"
    | some file, none => " (" ++ file ++ ")"
    | none, some line => s!" (line {line})"
    | none, none => ""

end Location

/-- A broken rule. -/
structure Violation where
  code : String
  rule : String
  severity : Severity
  location : Location
  message : String
  suggestion : Option String := none
  docRef : Option String := none
  deriving DecidableEq, Repr

namespace Violation

/-- The order of violations in a report: by location, then by code. -/
def le (left right : Violation) : Bool :=
  (left.location.order right.location).then (compare left.code right.code) != .gt

/-- The text on one line. -/
def text (violation : Violation) : String :=
  violation.location.text ++ ": " ++ violation.severity.word ++ " [" ++ violation.code ++ "] " ++
    violation.message ++
    (violation.docRef.map fun reference => " (see: " ++ reference ++ ")").getD ""

/-- The text on several lines, each closed by a line end. -/
def block (violation : Violation) : String :=
  violation.code ++ " " ++ violation.rule ++ " at " ++ violation.location.text ++ "\n" ++
    "  " ++ violation.severity.word ++ ": " ++ violation.message ++ "\n" ++
    (violation.suggestion.map fun hint => "  = help: " ++ hint ++ "\n").getD "" ++
    (violation.docRef.map fun reference => "  = see: " ++ reference ++ "\n").getD ""

/-- The text for a diagnostic view, without severity and hints. -/
def headline (violation : Violation) : String :=
  "[" ++ violation.code ++ "] " ++ violation.location.text ++ ": " ++ violation.message

/-- The hints for a diagnostic view. -/
def help? (violation : Violation) : Option String :=
  match violation.suggestion, violation.docRef with
  | some hint, some reference => some (hint ++ " (see: " ++ reference ++ ")")
  | some hint, none => some hint
  | none, some reference => some ("see: " ++ reference)
  | none, none => none

end Violation

end ClassAtlas
