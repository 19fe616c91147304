import ClassAtlas.Pattern.Glob

/-!
# Package patterns

A package pattern is a sequence of segments, and a package a sequence of parts. A literal
takes one equal part, a glob one part that it matches, `*` any one part, and `..` or `**`
any number of parts. In parentheses, `(*)` and `(**)` do the same and capture what they
took. Of several ways to match, the one counts whose pieces of many parts are shortest,
compared from the left.
-/

namespace ClassAtlas

/-- Why a text is no pattern. -/
inductive PatternFault
  | empty
  | threeDots
  | badCapture
  | glob (fault : GlobFault)
  deriving DecidableEq, Repr

/-- The wording of a pattern's fault. -/
def PatternFault.message : PatternFault → String
  | empty => "pattern is empty"
  | threeDots => "more than two consecutive dots"
  | badCapture => "capture groups must be '(*)' or '(**)'"
  | glob fault => fault.message

/-- A text that is no pattern, and why. -/
structure PatternError where
  pattern : String
  fault : PatternFault
  deriving DecidableEq, Repr

/-- The wording of a pattern error. -/
def PatternError.message (error : PatternError) : String :=
  "Invalid pattern '" ++ error.pattern ++ "': " ++ error.fault.message

/-- A segment of a package pattern. -/
inductive Segment
  | literal (text : String)
  | wildcard (glob : Glob)
  | one
  | many
  | captureOne
  | captureMany
  deriving DecidableEq, Repr

namespace Segment

/-- Read a segment. -/
def parse (letters : List Char) : Except PatternFault Segment :=
  let text := String.ofList letters
  if text = "*" then .ok one
  else if text = "**" then .ok many
  else if text = "(*)" then .ok captureOne
  else if text = "(**)" then .ok captureMany
  else if letters.any fun letter => letter = '(' || letter = ')' then .error .badCapture
  else if letters.any fun letter => letter = '*' || letter = '?' || letter = '[' then
    match Glob.parse text with
    | .ok glob => .ok (wildcard glob)
    | .error error => .error (.glob error.fault)
  else .ok (literal text)

/-- Whether a segment takes any number of parts. -/
def isMany : Segment → Bool
  | many | captureMany => true
  | _ => false

/-- Whether a segment captures what it takes. -/
def isCapture : Segment → Bool
  | captureOne | captureMany => true
  | _ => false

/-- Whether a segment takes a given part as its only one. -/
def acceptsPart (segment : Segment) (part : String) : Bool :=
  match segment with
  | literal text => text = part
  | wildcard glob => glob.accepts part
  | one | captureOne => true
  | many | captureMany => false

/-- What a segment captures of the parts it takes. -/
def captured (segment : Segment) (piece : List String) : List String :=
  if segment.isCapture then [".".intercalate piece] else []

end Segment

/-- A package pattern: its text and its segments. -/
structure PackagePattern where
  text : String
  segments : List Segment
  deriving DecidableEq, Repr

namespace PackagePattern

/-- The characters that count as blank. -/
def isBlank (letter : Char) : Bool :=
  let code := letter.toNat
  (0x09 ≤ code && code ≤ 0x0D) || code = 0x20 || code = 0x85 || code = 0xA0 || code = 0x1680 ||
    (0x2000 ≤ code && code ≤ 0x200A) || code = 0x2028 || code = 0x2029 || code = 0x202F ||
    code = 0x205F || code = 0x3000

/-- Whether three dots stand in a row. -/
def hasThreeDots : List Char → Bool
  | '.' :: '.' :: '.' :: _ => true
  | _ :: rest => hasThreeDots rest
  | [] => false

/-- Write two dots as a segment of their own. -/
def expandDots : List Char → List Char
  | '.' :: '.' :: rest => '.' :: '*' :: '*' :: '.' :: expandDots rest
  | letter :: rest => letter :: expandDots rest
  | [] => []

/-- The texts of the segments; single dots only separate. -/
def pieces (letters : List Char) : List (List Char) :=
  ((expandDots letters).splitOn '.').filter fun piece => !piece.isEmpty

/-- Read the segments of a pattern. -/
def parseSegments (letters : List Char) : Except PatternFault (List Segment) :=
  if letters.all isBlank then .error .empty
  else if hasThreeDots letters then .error .threeDots
  else (pieces letters).mapM Segment.parse

/-- Read a package pattern. -/
def parse (text : String) : Except PatternError PackagePattern :=
  match parseSegments text.toList with
  | .ok segments => .ok { text, segments }
  | .error fault => .error { pattern := text, fault }

/-- The number of captures. -/
def captureCount (pattern : PackagePattern) : Nat :=
  (pattern.segments.filter Segment.isCapture).length

/-- All ways to cut a list in two, the shortest first part first. -/
def cuts {α : Type} : List α → List (List α × List α)
  | [] => [([], [])]
  | head :: tail => ([], head :: tail) :: (cuts tail).map fun (left, right) => (head :: left, right)

/-- The captures of the first way in which segments take all parts. -/
def matchParts : List Segment → List String → Option (List String)
  | [], [] => some []
  | [], _ :: _ => none
  | segment :: segments, parts =>
    if segment.isMany then
      (cuts parts).findSome? fun (piece, rest) =>
        (matchParts segments rest).map (segment.captured piece ++ ·)
    else
      match parts with
      | part :: rest =>
        if segment.acceptsPart part then
          (matchParts segments rest).map (segment.captured [part] ++ ·)
        else none
      | [] => none

/-- What a package gives to the captures, if it matches. -/
def captures (pattern : PackagePattern) (package : String) : Option (List String) :=
  matchParts pattern.segments (Name.parts package)

/-- Whether a package matches. -/
def accepts (pattern : PackagePattern) (package : String) : Bool :=
  (pattern.captures package).isSome

end PackagePattern

end ClassAtlas
