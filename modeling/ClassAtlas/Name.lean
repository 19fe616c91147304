/-!
# Dotted and slashed names

Class and package names are sequences of parts joined by a separator: a dot in
source spelling, a slash in the file format. Everything here works on the list of
characters of a name, so that a statement about a name is a statement about a list.
-/

namespace ClassAtlas.Name

/-- Replace every occurrence of one character by another. -/
def respell (old new : Char) (letters : List Char) : List Char :=
  letters.map fun letter => if letter = old then new else letter

/-- The spelling with dots in place of slashes. -/
def dotted (text : String) : String := String.ofList (respell '/' '.' text.toList)

/-- The spelling with slashes in place of dots. -/
def slashed (text : String) : String := String.ofList (respell '.' '/' text.toList)

/-- What stands before and after the first occurrence of a separator. -/
def splitFirst (separator : Char) : List Char → Option (List Char × List Char)
  | [] => none
  | letter :: rest =>
    if letter = separator then some ([], rest)
    else (splitFirst separator rest).map fun (before, after) => (letter :: before, after)

/-- What stands before and after the last occurrence of a separator. -/
def splitLast (separator : Char) : List Char → Option (List Char × List Char)
  | [] => none
  | letter :: rest =>
    match splitLast separator rest with
    | some (before, after) => some (letter :: before, after)
    | none => if letter = separator then some ([], rest) else none

/-- The text after the last occurrence of a separator, or all of it. -/
def afterLast (separator : Char) (letters : List Char) : List Char :=
  ((splitLast separator letters).map Prod.snd).getD letters

/-- The package of a dotted class name: all before its last dot. -/
def package (name : String) : String :=
  match splitLast '.' name.toList with
  | some (before, _) => String.ofList before
  | none => ""

/-- The simple name: neither package, nor enclosing classes, nor the digits that
number a local class. An anonymous class has the empty simple name. -/
def simple (name : String) : String :=
  String.ofList ((afterLast '$' (afterLast '.' name.toList)).dropWhile Char.isDigit)

/-- The non-empty parts of a dotted name. -/
def parts (text : String) : List String :=
  ((text.toList.splitOn '.').filter fun part => !part.isEmpty).map String.ofList

/-- The letters before a given suffix, if the text ends in it. -/
def withoutSuffix (ending letters : List Char) : Option (List Char) :=
  if ending.isSuffixOf letters then some (letters.take (letters.length - ending.length)) else none

/-- Splitting at the first separator loses only the separator. -/
theorem splitFirst_eq_some {separator : Char} {letters before after : List Char}
    (found : splitFirst separator letters = some (before, after)) :
    letters = before ++ separator :: after ∧ separator ∉ before := by
  induction letters generalizing before with
  | nil => simp [splitFirst] at found
  | cons letter rest inductionHypothesis =>
    by_cases here : letter = separator
    · simp only [splitFirst, here, if_true, Option.some.injEq, Prod.mk.injEq] at found
      obtain ⟨rfl, rfl⟩ := found
      simp [here]
    · simp only [splitFirst, here, if_false, Option.map_eq_some_iff, Prod.mk.injEq,
        Prod.exists] at found
      obtain ⟨shorter, _, later, rfl, rfl⟩ := found
      obtain ⟨rfl, absent⟩ := inductionHypothesis later
      exact ⟨rfl, by simp [absent, Ne.symm here]⟩

end ClassAtlas.Name
