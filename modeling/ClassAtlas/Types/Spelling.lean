import ClassAtlas.Types.TypeName

/-!
# Spellings of types

A type can be written in several ways: as a dotted or slashed class name, as a
descriptor (`Ljava/lang/Object;`, `I`), as a binary array name (`[[I`), or as a source
array name (`int[][]`). The readers here differ in what a bare word means. `parse`
takes a descriptor letter for a primitive type; `ofClassName` reads the names that
class files give to classes, where a class of the default package may be called `I`.
-/

namespace ClassAtlas

/-- Why a text is no type. The text is the part that was found at fault. -/
inductive SpellingError
  | notPrimitive (text : String)
  | invalid (text : String)
  | mixedArrayForms (text : String)
  deriving DecidableEq, Repr

/-- The wording of a spelling error. -/
def SpellingError.message : SpellingError → String
  | notPrimitive text => "'" ++ text ++ "' must be a primitive name"
  | invalid text => "invalid type descriptor: `" ++ text ++ "`"
  | mixedArrayForms text =>
    "type name mixes internal and canonical array notation: `" ++ text ++ "`"

namespace TypeName

/-- Punctuation of descriptors, which no class name may hold. -/
def punctuation : List Char := ['[', ']', ';', '(', ')']

/-- A class name is not empty and holds no punctuation of descriptors. -/
def isObjectName (letters : List Char) : Bool :=
  !letters.isEmpty && letters.all fun letter => letter ∉ punctuation

/-- The class of a dotted or slashed name. -/
def ofObjectName (letters : List Char) : Except SpellingError TypeName :=
  if isObjectName letters then .ok (object (String.ofList (Name.respell '/' '.' letters)))
  else .error (.invalid (String.ofList letters))

/-- The letters between the `L` and the semicolon of a class descriptor. -/
def descriptorBody? : List Char → Option (List Char)
  | 'L' :: rest => Name.withoutSuffix [';'] rest
  | _ => none

/-- The element type of a binary array name. A fault is reported with one bracket
before the element, however many there were. -/
def ofArrayElement (element : List Char) : Except SpellingError TypeName :=
  match Primitive.ofDescriptor? element with
  | some .void => .error (.invalid (String.ofList ('[' :: element)))
  | some kind => .ok (primitive kind)
  | none =>
    match descriptorBody? element with
    | some name => ofObjectName name
    | none => .error (.invalid (String.ofList ('[' :: element)))

/-- The array with a given binary name, which starts with a bracket. -/
def ofBinaryArray (letters : List Char) : Except SpellingError TypeName :=
  let brackets := letters.takeWhile (· = '[')
  let element := letters.dropWhile (· = '[')
  (ofArrayElement element).map (·.arrayOf brackets.length)

/-- Count and remove the pairs of brackets at the front of a reversed name. -/
def stripBrackets : List Char → Nat × List Char
  | ']' :: '[' :: rest => ((stripBrackets rest).1 + 1, (stripBrackets rest).2)
  | letters => (0, letters)

/-- The array with a given source name, such as `int[][]`. -/
def ofSourceArray (raw : String) : Except SpellingError TypeName :=
  let stripped := stripBrackets raw.toList.reverse
  let element := stripped.2.reverse
  if element.any fun letter => letter = '[' || letter = ']' then .error (.mixedArrayForms raw)
  else
    match Primitive.ofKeyword? (String.ofList element) with
    | some .void => .error (.invalid raw)
    | some kind => .ok ((primitive kind).arrayOf stripped.1)
    | none => (ofObjectName element).map (·.arrayOf stripped.1)

/-- Read a name by the array notation it uses; a name that uses none is read by
`plain`, and one that uses both is refused. -/
def ofForm (raw : String) (plain : List Char → Except SpellingError TypeName) :
    Except SpellingError TypeName :=
  match ['['].isPrefixOf raw.toList, ['[', ']'].isSuffixOf raw.toList with
  | true, true => .error (.mixedArrayForms raw)
  | true, false => ofBinaryArray (Name.respell '/' '.' raw.toList)
  | false, true => ofSourceArray raw
  | false, false => plain raw.toList

/-- Read a class name: a plain name or an array in either notation. A keyword of a
primitive type cannot name a class and stays primitive. -/
def ofClassName (raw : String) : Except SpellingError TypeName :=
  match Primitive.ofKeyword? raw with
  | some kind => .ok (primitive kind)
  | none => ofForm raw ofObjectName

/-- Read any spelling of a type. -/
def parse (raw : String) : Except SpellingError TypeName :=
  if raw.toList.isEmpty then .error (.invalid raw)
  else
    match Primitive.ofText? raw with
    | some kind => .ok (primitive kind)
    | none => ofForm raw fun letters => ofObjectName ((descriptorBody? letters).getD letters)

/-- Read a primitive type by keyword or letter. -/
def ofPrimitiveText (raw : String) : Except SpellingError TypeName :=
  match Primitive.ofText? raw with
  | some kind => .ok (primitive kind)
  | none => .error (.notPrimitive raw)

end TypeName

end ClassAtlas
