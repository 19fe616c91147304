/-!
# Diagnostics of an import

A class file that cannot be used does not stop an import; it leaves a diagnostic that
names its address and says what was wrong.
-/

namespace ClassAtlas

/-- What went wrong with one class file or one reference. -/
inductive DiagnosticKind
  | read
  | parse
  | duplicateClass
  | resolve
  deriving DecidableEq, Repr

/-- The word for a kind in running text. -/
def DiagnosticKind.word : DiagnosticKind → String
  | read => "read"
  | parse => "parse"
  | duplicateClass => "duplicate"
  | resolve => "resolve"

/-- The word for a kind in structured reports. -/
def DiagnosticKind.key : DiagnosticKind → String
  | read => "read"
  | parse => "parse"
  | duplicateClass => "duplicate-class"
  | resolve => "resolve"

/-- A problem that did not stop the import. -/
structure Diagnostic where
  kind : DiagnosticKind
  uri : String
  message : String
  deriving DecidableEq, Repr

/-- The text of a diagnostic. -/
def Diagnostic.text (diagnostic : Diagnostic) : String :=
  "[" ++ diagnostic.kind.word ++ "] " ++ diagnostic.uri ++ ": " ++ diagnostic.message

end ClassAtlas
