import ClassAtlas.Name

/-!
# Globs

A glob is a pattern over a whole text. A question mark stands for any character, a star for
any sequence, brackets for one character of a set. Two stars stand for any sequence of
whole path components, and have to be a component of their own. Stars and question marks
match slashes like any other character.

Matching carries along all suffixes of the text that the pattern read so far may leave, the
longest first, so that no choice is ever made twice.
-/

namespace ClassAtlas

/-- Why a text is no glob. -/
inductive GlobFault
  | tooManyStars
  | looseRecursion
  | invalidRange
  deriving DecidableEq, Repr

/-- The wording of a glob's fault. -/
def GlobFault.message : GlobFault → String
  | tooManyStars => "wildcards are either regular `*` or recursive `**`"
  | looseRecursion => "recursive wildcards must form a single path component"
  | invalidRange => "invalid range pattern"

/-- A fault and where it was found. -/
structure GlobError where
  position : Nat
  fault : GlobFault
  deriving DecidableEq, Repr

/-- The wording of a fault with its place. -/
def GlobError.message (error : GlobError) : String :=
  s!"Pattern syntax error near position {error.position}: " ++ error.fault.message

namespace Glob

/-- A closed range of characters; a single one is a range of its own. -/
structure Range where
  first : Char
  last : Char
  deriving DecidableEq, Repr

/-- Whether a character lies in a range. -/
def Range.contains (range : Range) (letter : Char) : Bool :=
  range.first ≤ letter && letter ≤ range.last

/-- A part of a glob. -/
inductive Token
  | letter (value : Char)
  | anyLetter
  | oneOf (ranges : List Range)
  | noneOf (ranges : List Range)
  | anySequence
  | anyComponents
  deriving DecidableEq, Repr

/-- The ranges of a set. A hyphen between two characters makes a range. -/
def ranges : List Char → List Range
  | first :: '-' :: last :: rest => ⟨first, last⟩ :: ranges rest
  | letter :: rest => ⟨letter, letter⟩ :: ranges rest
  | [] => []

/-- The set that follows an opening bracket, and what comes after it. Its first
character is not taken for the closing bracket. -/
def takeSet : List Char → Option (Token × List Char)
  | '!' :: first :: rest =>
    (Name.splitFirst ']' rest).map fun (inside, after) =>
      (.noneOf (ranges (first :: inside)), after)
  | ['!'] => none
  | first :: rest =>
    (Name.splitFirst ']' rest).map fun (inside, after) => (.oneOf (ranges (first :: inside)), after)
  | [] => none

/-- A set takes at least one letter. -/
theorem takeSet_length {letters after : List Char} {token : Token}
    (taken : takeSet letters = some (token, after)) : after.length < letters.length := by
  have shorter {rest inside : List Char} {later : List Char}
      (found : Name.splitFirst ']' rest = some (inside, later)) : later.length < rest.length := by
    obtain ⟨shape, _⟩ := Name.splitFirst_eq_some found
    simp only [shape, List.length_append, List.length_cons]
    omega
  fun_cases takeSet letters with
  | case1 first rest =>
    simp only [takeSet, Option.map_eq_some_iff, Prod.exists, Prod.mk.injEq] at taken
    obtain ⟨_, _, found, _, rfl⟩ := taken
    have := shorter found
    simp only [List.length_cons]
    omega
  | case2 => simp [takeSet] at taken
  | case3 first rest notExcept notAlone =>
    rw [takeSet.eq_3 first rest notExcept notAlone] at taken
    simp only [Option.map_eq_some_iff, Prod.exists, Prod.mk.injEq] at taken
    obtain ⟨_, _, found, _, rfl⟩ := taken
    have := shorter found
    simp only [List.length_cons]
    omega
  | case4 => simp [takeSet] at taken

/-- The tokens of a text that starts at a position after a given character. -/
def tokenize (position : Nat) (previous : Option Char) (letters : List Char) :
    Except GlobError (List Token) :=
  match letters with
  | [] => .ok []
  | '?' :: rest => (tokenize (position + 1) (some '?') rest).map (.anyLetter :: ·)
  | '*' :: '*' :: '*' :: _ => .error { position := position + 2, fault := .tooManyStars }
  | '*' :: '*' :: rest =>
    if previous = none || previous = some '/' then
      match rest with
      | [] => .ok [.anyComponents]
      | '/' :: after =>
        (tokenize (position + 3) (some '/') after).map (.anyComponents :: ·)
      | _ => .error { position := position + 2, fault := .looseRecursion }
    else .error { position := position - 1, fault := .looseRecursion }
  | '*' :: rest => (tokenize (position + 1) (some '*') rest).map (.anySequence :: ·)
  | '[' :: rest =>
    match _taken : takeSet rest with
    | some (token, after) =>
      (tokenize (position + 1 + (rest.length - after.length)) (some ']') after).map (token :: ·)
    | none => .error { position, fault := .invalidRange }
  | letter :: rest => (tokenize (position + 1) (some letter) rest).map (.letter letter :: ·)
termination_by letters.length
decreasing_by all_goals grind [→ takeSet_length]

/-- Whether a token that stands for one character accepts it. -/
def Token.accepts (token : Token) (candidate : Char) : Bool :=
  match token with
  | letter value => value = candidate
  | anyLetter => true
  | oneOf ranges => ranges.any (·.contains candidate)
  | noneOf ranges => !ranges.any (·.contains candidate)
  | anySequence | anyComponents => false

/-- All suffixes of a text, the longest first. -/
def suffixes : List Char → List (List Char)
  | [] => [[]]
  | letter :: rest => (letter :: rest) :: suffixes rest

/-- The suffixes of a text that start after a slash, and the empty one. -/
def componentSuffixes : List Char → List (List Char)
  | [] => [[]]
  | letter :: rest =>
    if letter = '/' && !rest.isEmpty then rest :: componentSuffixes rest
    else componentSuffixes rest

/-- Merge two lists of suffixes of one text, the longest first. -/
def mergeSuffixes (left right : List (List Char)) : List (List Char) :=
  (List.merge left right fun first second => first.length ≥ second.length).eraseReps

/-- The suffixes that may be left after one more token. -/
def advance (left : List (List Char)) (token : Token) : List (List Char) :=
  match token, left with
  | _, [] => []
  | .anySequence, longest :: _ => suffixes longest
  | .anyComponents, longest :: others =>
    mergeSuffixes (longest :: others) (componentSuffixes longest)
  | token, candidates =>
    candidates.filterMap fun
      | letter :: rest => if token.accepts letter then some rest else none
      | [] => none

end Glob

/-- A glob: its text and its tokens. -/
structure Glob where
  text : String
  tokens : List Glob.Token
  deriving DecidableEq, Repr

namespace Glob

/-- Read a glob. -/
def parse (text : String) : Except GlobError Glob :=
  (tokenize 0 none text.toList).map fun tokens => { text, tokens }

/-- Whether a glob matches the whole of a text. -/
def accepts (glob : Glob) (text : String) : Bool :=
  (glob.tokens.foldl advance [text.toList]).contains []

end Glob

end ClassAtlas
