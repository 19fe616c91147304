import ClassAtlas.Toml.Number
import ClassAtlas.Toml.Tree

/-!
# Settings documents

A document is a sequence of lines: a key with its value, or a header that opens a table. Values
nest at most 79 deep, and a key has at most 79 parts.
-/

namespace ClassAtlas.Toml

/-- A comment up to the end of its line. -/
def comment : Scanner Unit := do
  Scanner.letter '#'
  let _ ← Scanner.many isPlain

/-- Blanks, line ends and comments. -/
def skipLines : Scanner Unit := do
  let _ ← Scanner.repeated
    ((do let _ ← Scanner.some1 isBlank) <|> lineEnd <|> (do comment; lineEnd))

/-- One part of a key: letters, digits, dashes and underscores, or a quoted text. -/
def keyPart : Scanner String :=
  (do
    let letters ← Scanner.some1 fun letter => letter.isAlphanum || letter = '_' || letter = '-'
    return String.ofList letters) <|> Quoted.basic <|> Quoted.literal

/-- A part of a key with the blanks around it. -/
def spacedPart : Scanner String := do
  skipBlanks
  let part ← keyPart
  skipBlanks
  return part

/-- A key: parts with dots between them. -/
def key : Scanner (List String) := do
  let first ← spacedPart
  let rest ← Scanner.repeated (do Scanner.letter '.'; spacedPart)
  if rest.length + 1 < 80 then return first :: rest else failure

/-- A value that is neither array nor table. -/
def scalar : Scanner Value :=
  (do return .string (← Quoted.text)) <|> Number.value <|>
    (do Scanner.word "true"; return .boolean true) <|>
    (do Scanner.word "false"; return .boolean false)

/-- An array of items. The last may be followed by a comma. -/
def arrayOf (item : Scanner Value) : Scanner Value := do
  Scanner.letter '['
  skipLines
  let first ← Scanner.optional item
  match first with
  | none =>
    Scanner.letter ']'
    return .array []
  | some first =>
    skipLines
    let rest ← Scanner.repeated (do
      Scanner.letter ','
      skipLines
      let value ← item
      skipLines
      return value)
    let _ ← Scanner.optional (Scanner.letter ',')
    skipLines
    Scanner.letter ']'
    return .array (first :: rest)

/-- A key with its value. -/
def assignment (item : Scanner Value) : Scanner (List String × Value) := do
  let path ← key
  Scanner.letter '='
  skipBlanks
  let value ← item
  skipBlanks
  return (path, value)

/-- A table within a line. -/
def tableOf (item : Scanner Value) : Scanner Value := do
  Scanner.letter '\x7b'
  skipBlanks
  let first ← Scanner.optional (assignment item)
  let assignments ← match first with
    | none => pure []
    | some first =>
      let rest ← Scanner.repeated (do Scanner.letter ','; assignment item)
      pure (first :: rest)
  Scanner.letter '\x7d'
  match Entries.assignAll [] assignments with
  | some entries => return .table (finishEntries entries)
  | none => failure

/-- A value with arrays and tables nested to a depth. -/
def valueTo : Nat → Scanner Value
  | 0 => scalar
  | depth + 1 => scalar <|> arrayOf (valueTo depth) <|> tableOf (valueTo depth)

/-- A value. -/
def value : Scanner Value := valueTo 79

/-- The end of a line with blanks and a comment before it; the text may end here too. -/
def restOfLine : Scanner Unit := do
  skipBlanks
  let _ ← Scanner.optional comment
  match ← Scanner.peek with
  | none => return ()
  | some _ => lineEnd

/-- A header, of a table or of the next table of an array. -/
inductive Header
  | one (path : List String)
  | next (path : List String)

/-- The line of a header. -/
def header : Scanner Header := do
  let found ←
    (do
      Scanner.word "[["
      let path ← key
      Scanner.word "]]"
      return Header.next path) <|>
    (do
      Scanner.letter '['
      let path ← key
      Scanner.letter ']'
      return Header.one path)
  restOfLine
  return found

/-- The keys and values of one table. -/
def body : Scanner (List (List String × Value)) := do
  skipLines
  Scanner.repeated (do
    let found ← assignment value
    restOfLine
    skipLines
    return found)

/-- A header with its keys and values. -/
def tableSection : Scanner (Header × List (List String × Value)) := do
  let header ← header
  return (header, ← body)

/-- The sections of a document: what stands before the first header, and each header's part. A
comment without a line end may close the text. -/
def sections :
    Scanner (List (List String × Value) × List (Header × List (List String × Value))) := do
  let _ ← Scanner.optional (Scanner.letter '\ufeff')
  let start ← body
  let rest ← Scanner.repeated tableSection
  let _ ← Scanner.optional comment
  return (start, rest)

/-- Add the part of a header. -/
def Header.extend (entries : Entries) :
    Header × List (List String × Value) → Option Entries
  | (.one path, assignments) => entries.define path assignments
  | (.next path, assignments) => entries.defineNext path assignments

/-- Read a document into the entries of its top table. -/
def parse? (text : String) : Option (List (String × Value)) := do
  let (start, rest) ← Scanner.whole? sections text.toList
  let entries ← rest.foldlM Header.extend (← Entries.assignAll [] start)
  return finishEntries entries

end ClassAtlas.Toml
