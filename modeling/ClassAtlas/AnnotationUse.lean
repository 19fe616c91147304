/-!
# Annotations

An annotation has a type and named element values; a value is a literal, an enum
constant, a class, another annotation or an array of values. How types are given
differs between stages: as descriptors in a class file, as types once they are read,
as nodes in a graph. The two parameters stand for that: `τ` names annotation and enum
types, `κ` names the types of class literals.
-/

namespace ClassAtlas

/-- A literal in an annotation. Floating point numbers are kept as bit patterns. -/
inductive Literal
  | byte (value : Int8)
  | char (value : Char)
  | short (value : Int16)
  | int (value : Int32)
  | long (value : Int64)
  | float (bits : UInt32)
  | double (bits : UInt64)
  | boolean (value : Bool)
  | string (value : String)
  deriving DecidableEq, Repr

mutual

/-- An annotation: its type and its elements in order. -/
inductive AnnotationUse (τ κ : Type)
  | mk (type : τ) (elements : List (Element τ κ))

/-- A named value of an annotation. -/
inductive Element (τ κ : Type)
  | mk (name : String) (value : ElementValue τ κ)

/-- The value of an annotation's element. -/
inductive ElementValue (τ κ : Type)
  | literal (value : Literal)
  | enumConstant (type : τ) (constant : String)
  | classLiteral (type : κ)
  | nested (value : AnnotationUse τ κ)
  | array (values : List (ElementValue τ κ))

end

section

variable {τ κ : Type}

/-- The type of an annotation. -/
def AnnotationUse.type : AnnotationUse τ κ → τ
  | mk type _ => type

/-- The elements of an annotation in order. -/
def AnnotationUse.elements : AnnotationUse τ κ → List (Element τ κ)
  | mk _ elements => elements

/-- The name of an element. -/
def Element.name : Element τ κ → String
  | mk name _ => name

/-- The value of an element. -/
def Element.value : Element τ κ → ElementValue τ κ
  | mk _ value => value

/-- The value of the first element with a given name. -/
def AnnotationUse.value? (annotationUse : AnnotationUse τ κ) (name : String) :
    Option (ElementValue τ κ) :=
  (annotationUse.elements.find? fun element => element.name = name).map Element.value

variable {τ' κ' : Type} {m : Type → Type} [Monad m]

/-!
Types are replaced in order of appearance, an annotation's own type before its elements.
Where reading a type can fail, the first failure in that order is the result.
-/

mutual

/-- Replace the types of an annotation and of all values in it. -/
def AnnotationUse.mapTypes (named : τ → m τ') (literal : κ → m κ') :
    AnnotationUse τ κ → m (AnnotationUse τ' κ')
  | .mk type elements => do
    let type ← named type
    let elements ← elementsTypes named literal elements
    return .mk type elements

/-- Replace the types in a list of elements. -/
def elementsTypes (named : τ → m τ') (literal : κ → m κ') :
    List (Element τ κ) → m (List (Element τ' κ'))
  | [] => return []
  | .mk name value :: rest => do
    let value ← ElementValue.mapTypes named literal value
    let rest ← elementsTypes named literal rest
    return .mk name value :: rest

/-- Replace the types of a value and of all values in it. -/
def ElementValue.mapTypes (named : τ → m τ') (literal : κ → m κ') :
    ElementValue τ κ → m (ElementValue τ' κ')
  | .literal value => return .literal value
  | .enumConstant type constant => return .enumConstant (← named type) constant
  | .classLiteral type => return .classLiteral (← literal type)
  | .nested value => return .nested (← AnnotationUse.mapTypes named literal value)
  | .array values => return .array (← valuesTypes named literal values)

/-- Replace the types in a list of values. -/
def valuesTypes (named : τ → m τ') (literal : κ → m κ') :
    List (ElementValue τ κ) → m (List (ElementValue τ' κ'))
  | [] => return []
  | value :: rest => do
    let value ← ElementValue.mapTypes named literal value
    let rest ← valuesTypes named literal rest
    return value :: rest

end

variable {α : Type}

mutual

/-- What the types of an annotation give, in order of appearance. -/
def AnnotationUse.collect (named : τ → List α) (literal : κ → List α) :
    AnnotationUse τ κ → List α
  | .mk type elements => named type ++ elementsCollect named literal elements

/-- What the types in a list of elements give. -/
def elementsCollect (named : τ → List α) (literal : κ → List α) :
    List (Element τ κ) → List α
  | [] => []
  | .mk _ value :: rest =>
    ElementValue.collect named literal value ++ elementsCollect named literal rest

/-- What the types in a value give. -/
def ElementValue.collect (named : τ → List α) (literal : κ → List α) :
    ElementValue τ κ → List α
  | .literal _ => []
  | .enumConstant type _ => named type
  | .classLiteral type => literal type
  | .nested value => AnnotationUse.collect named literal value
  | .array values => valuesCollect named literal values

/-- What the types in a list of values give. -/
def valuesCollect (named : τ → List α) (literal : κ → List α) :
    List (ElementValue τ κ) → List α
  | [] => []
  | value :: rest =>
    ElementValue.collect named literal value ++ valuesCollect named literal rest

end

end

end ClassAtlas
