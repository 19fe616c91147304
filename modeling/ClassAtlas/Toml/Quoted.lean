import ClassAtlas.Toml.Scanner

/-!
# Quoted texts

Four forms: double quotes take escapes and single quotes do not; either can be tripled, and
then the text may run over several lines. A line end is always read as one line feed.
-/

namespace ClassAtlas.Toml

/-- A blank within a line. -/
def isBlank (letter : Char) : Bool := letter = ' ' || letter = '\t'

/-- A character that may stand in a text or comment as it is. -/
def isPlain (letter : Char) : Bool :=
  letter = '\t' || (32 ≤ letter.toNat && letter.toNat ≠ 127)

/-- Blanks within a line. -/
def skipBlanks : Scanner Unit := do
  let _ ← Scanner.many isBlank

/-- A line end: a line feed, possibly after a carriage return. -/
def lineEnd : Scanner Unit := Scanner.word "\n" <|> Scanner.word "\r\n"

namespace Quoted

/-- The value of a hexadecimal digit. -/
def hexValue? (letter : Char) : Option Nat :=
  if letter.isDigit then some (letter.toNat - '0'.toNat)
  else if 'a' ≤ letter && letter ≤ 'f' then some (letter.toNat - 'a'.toNat + 10)
  else if 'A' ≤ letter && letter ≤ 'F' then some (letter.toNat - 'A'.toNat + 10)
  else none

/-- The character with a code point of so many hexadecimal digits. -/
def codePoint (count : Nat) : Scanner Char := do
  let letters ← (List.replicate count ()).mapM fun _ => Scanner.letterWhere fun _ => true
  match letters.mapM hexValue? with
  | none => failure
  | some digits =>
    let code := digits.foldl (fun value digit => 16 * value + digit) 0
    if code.isValidChar then return Char.ofNat code else failure

/-- The character that an escape stands for; the backslash has been read. -/
def escaped : Scanner Char := do
  match ← Scanner.letterWhere fun _ => true with
  | 'b' => return '\x08'
  | 't' => return '\t'
  | 'n' => return '\n'
  | 'f' => return '\x0c'
  | 'r' => return '\r'
  | '"' => return '"'
  | '\\' => return '\\'
  | 'u' => codePoint 4
  | 'U' => codePoint 8
  | _ => failure

/-- A character of a text in double quotes. -/
def basicLetter : Scanner Char :=
  Scanner.letterWhere (fun letter => isPlain letter && letter ≠ '"' && letter ≠ '\\') <|>
    (do Scanner.letter '\\'; escaped)

/-- A character of a text in single quotes. -/
def literalLetter : Scanner Char :=
  Scanner.letterWhere fun letter => isPlain letter && letter ≠ '\''

/-- A text on one line between quotes. -/
def single (quote : Char) (letter : Scanner Char) : Scanner String := do
  Scanner.letter quote
  let letters ← Scanner.repeated letter
  Scanner.letter quote
  return String.ofList letters

/-- A line end that a backslash hides, with all blanks and line ends after it. -/
def hiddenLineEnd : Scanner Unit := do
  Scanner.letter '\\'
  skipBlanks
  lineEnd
  let _ ← Scanner.repeated (lineEnd <|> (do let _ ← Scanner.letterWhere isBlank))

/-- One or two quotes inside a text in triple quotes: something else has to follow. -/
def innerQuotes (quote : Char) : Scanner (List Char) := do
  let quotes ← Scanner.some1 (· = quote)
  if 2 < quotes.length || (← Scanner.peek).isNone then failure else return quotes

/-- The closing triple quotes, and up to two quotes of the text before them. -/
def closing (quote : Char) : Scanner (List Char) := fun text =>
  let count := (text.takeWhile (· = quote)).length
  if count < 3 then none
  else
    let extra := min (count - 3) 2
    some (List.replicate extra quote, text.drop (extra + 3))

/-- A part of a text in triple quotes. -/
def linesPart (quote : Char) (letter : Scanner Char) : Scanner (List Char) :=
  (do return [← letter]) <|> (do lineEnd; return ['\n']) <|> innerQuotes quote

/-- A text in triple quotes. A line end right after the opening is dropped. -/
def triple (quote : Char) (part : Scanner (List Char)) : Scanner String := do
  Scanner.word (String.ofList [quote, quote, quote])
  let _ ← Scanner.optional lineEnd
  let parts ← Scanner.repeated part
  return String.ofList (parts.flatten ++ (← closing quote))

/-- A text in double quotes on one line. -/
def basic : Scanner String := single '"' basicLetter

/-- A text in single quotes on one line. -/
def literal : Scanner String := single '\'' literalLetter

/-- A text in quotes of any form. -/
def text : Scanner String :=
  triple '"' ((do hiddenLineEnd; return []) <|> linesPart '"' basicLetter) <|> basic <|>
    triple '\'' (linesPart '\'' literalLetter) <|> literal

end Quoted

end ClassAtlas.Toml
