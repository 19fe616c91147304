import ClassAtlas.AnnotationUse

/-!
# Class records

A class record holds what one class file says, and nothing that other classes would
have to confirm. Class names are dotted; descriptors are kept as written. Source lines
count from one, and line zero means that none is known.
-/

namespace ClassAtlas

/-- An annotation whose types are given by descriptors. -/
abbrev AnnotationRecord := AnnotationUse String String

/-- How an instruction uses a member. -/
inductive AccessKind
  | getField
  | setField
  | methodCall
  | constructorCall
  deriving DecidableEq, Repr

/-- Whether the member is a field. -/
def AccessKind.isField : AccessKind → Bool
  | getField | setField => true
  | methodCall | constructorCall => false

/-- A use of a member in a method body. The owner is the type through which the member
is named, and may be an array. -/
structure AccessRecord where
  kind : AccessKind
  owner : String
  name : String
  descriptor : String
  line : Nat
  deriving DecidableEq, Repr

/-- A type that a method body names: by creation, cast, test, literal or handler. -/
structure TypeMention where
  name : String
  line : Nat
  deriving DecidableEq, Repr

/-- A declared field. -/
structure FieldRecord where
  name : String
  descriptor : String
  flags : UInt16
  annotations : List AnnotationRecord

/-- A declared method, constructor or static initializer. -/
structure MethodRecord where
  name : String
  descriptor : String
  flags : UInt16
  annotations : List AnnotationRecord
  throws : List String
  accesses : List AccessRecord
  typeMentions : List TypeMention
  firstLine : Option Nat

/-- Where a class stands inside other classes. The flags are those of the declaration,
which alone tell `static`, `private` and `protected`. -/
structure Nesting where
  enclosingClass : Option String := none
  innerName : Option String := none
  innerFlags : Option UInt16 := none
  isLocal : Bool := false
  enclosingMethod : Option (String × String) := none
  deriving DecidableEq, Repr

/-- Whether a class is declared inside another. -/
def Nesting.isNested (nesting : Nesting) : Bool := nesting.enclosingClass.isSome

/-- What one class file says. -/
structure ClassRecord where
  name : String
  flags : UInt16
  major : UInt16
  minor : UInt16
  superclass : Option String
  interfaces : List String
  fields : List FieldRecord
  methods : List MethodRecord
  annotations : List AnnotationRecord
  sourceFile : Option String
  nesting : Nesting

namespace ClassRecord

/-- The superclass, if any, and then the interfaces. -/
def supertypes (record : ClassRecord) : List String :=
  record.superclass.toList ++ record.interfaces

/-- The owners of all accesses, method by method. -/
def accessOwners (record : ClassRecord) : List String :=
  record.methods.flatMap fun method => method.accesses.map AccessRecord.owner

end ClassRecord

end ClassAtlas
