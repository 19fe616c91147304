import ClassAtlas.ClassFile.Record
import ClassAtlas.Graph.Modifier
import ClassAtlas.Source
import ClassAtlas.Types.TypeName

/-!
# Nodes and edges of a class graph

Classes, members and accesses are numbered, and refer to each other by number. Primitive
types are no classes and have no number.
-/

namespace ClassAtlas

/-- The number of a class. -/
abbrev ClassId := Nat

/-- The number of a member. -/
abbrev MemberId := Nat

/-- The number of an access. -/
abbrev AccessId := Nat

/-- The kind of a class. Stubs and arrays count as ordinary classes. -/
inductive ClassKind
  | ordinary
  | interface
  | enumeration
  | annotationType
  deriving DecidableEq, Repr

/-- The kind that the flags of a class tell. -/
def ClassKind.ofFlags (flags : UInt16) : ClassKind :=
  if flags &&& 0x2000 != 0 then annotationType
  else if flags &&& 0x0200 != 0 then interface
  else if flags &&& 0x4000 != 0 then enumeration
  else ordinary

/-- The word for a kind of class. -/
def ClassKind.word : ClassKind → String
  | ordinary => "class"
  | interface => "interface"
  | enumeration => "enum"
  | annotationType => "annotation"

/-- What is known of a class: its file, or only its name. -/
inductive Resolution
  | resolved (source : Source) (pulledIn : Bool)
  | stub
  deriving DecidableEq, Repr

/-- A type in a signature or literal. -/
inductive TypeRef
  | primitive (kind : Primitive)
  | node (id : ClassId)
  deriving DecidableEq, Repr

/-- The class that a type refers to. -/
def TypeRef.node? : TypeRef → Option ClassId
  | primitive _ => none
  | node id => some id

/-- An annotation whose types are nodes. -/
abbrev NodeAnnotations := List (AnnotationUse ClassId TypeRef)

/-- The kind of a member. -/
inductive MemberKind
  | field
  | method
  | constructor
  | staticInitializer
  deriving DecidableEq, Repr

/-- The word for a kind of member. -/
def MemberKind.word : MemberKind → String
  | field => "field"
  | method => "method"
  | constructor => "constructor"
  | staticInitializer => "static initializer"

/-- The kind of a method by its name. -/
def MemberKind.ofMethodName (name : String) : MemberKind :=
  if name = "<init>" then constructor
  else if name = "<clinit>" then staticInitializer
  else method

/-- The method that a local class is declared in, as far as it is known. -/
structure MethodRef where
  owner : ClassId
  name : Option String
  descriptor : Option String
  resolved : Option MemberId
  deriving DecidableEq, Repr

/-- A class that the body of a method names. -/
structure TypeReference where
  origin : MemberId
  target : ClassId
  line : Nat
  deriving DecidableEq, Repr

/-- A class, an interface or an array type. Ancestors are all proper supertypes, those of
the superclass chain first. -/
structure ClassNode where
  id : ClassId
  type : TypeName
  simpleName : String
  kind : ClassKind := .ordinary
  modifiers : List Modifier := []
  resolution : Resolution := .stub
  superclass : Option ClassId := none
  interfaces : List ClassId := []
  component : Option ClassId := none
  fields : List MemberId := []
  methods : List MemberId := []
  constructors : List MemberId := []
  staticInitializer : Option MemberId := none
  enclosingClass : Option ClassId := none
  enclosingMethod : Option MethodRef := none
  nestedClasses : List ClassId := []
  annotations : NodeAnnotations := []
  typeReferences : List TypeReference := []
  ancestors : List ClassId := []

namespace ClassNode

/-- The binary name. -/
def name (node : ClassNode) : String := node.type.name

/-- The package. -/
def package (node : ClassNode) : String := node.type.package

/-- Whether only the name is known. -/
def isStub (node : ClassNode) : Bool := node.resolution = .stub

/-- Whether the class was found through a resolver. -/
def isPulledIn (node : ClassNode) : Bool :=
  match node.resolution with
  | .resolved _ pulledIn => pulledIn
  | .stub => false

/-- Whether the class was imported. -/
def isImported (node : ClassNode) : Bool := !node.isStub && !node.isPulledIn

/-- Where the class came from. -/
def source? (node : ClassNode) : Option Source :=
  match node.resolution with
  | .resolved source _ => some source
  | .stub => none

/-- Whether the class is an interface; types of annotations are. -/
def isInterface (node : ClassNode) : Bool :=
  node.kind = .interface || node.kind = .annotationType

/-- Whether the class is declared in another. -/
def isNested (node : ClassNode) : Bool := node.enclosingClass.isSome

/-- Whether the class has no name in the source. -/
def isAnonymous (node : ClassNode) : Bool := node.isNested && node.simpleName.isEmpty

/-- All declared members: fields, constructors, methods, and the static initializer. -/
def members (node : ClassNode) : List MemberId :=
  node.fields ++ node.constructors ++ node.methods ++ node.staticInitializer.toList

/-- The superclass, if any, and then the interfaces. -/
def supertypes (node : ClassNode) : List ClassId := node.superclass.toList ++ node.interfaces

end ClassNode

/-- A field, method, constructor or static initializer. The value type of a method is
what it returns. -/
structure Member where
  id : MemberId
  owner : ClassId
  kind : MemberKind
  name : String
  descriptor : String
  modifiers : List Modifier
  valueType : TypeRef
  parameters : List TypeRef := []
  throws : List ClassId := []
  annotations : NodeAnnotations := []
  accesses : List AccessId := []
  firstLine : Option Nat := none

/-- Whether a member is abstract. -/
def Member.isAbstract (member : Member) : Bool := member.modifiers.contains .abstract

/-- A use of a member by the body of another. The owner is the class that the code
names; the resolved member may be declared further up. -/
structure AccessEdge where
  id : AccessId
  origin : MemberId
  kind : AccessKind
  owner : ClassId
  name : String
  descriptor : String
  resolved : Option MemberId
  line : Nat
  deriving DecidableEq, Repr

/-- Why one class depends on another. -/
inductive DependencyKind
  | superclass
  | interface
  | fieldType
  | parameterType
  | returnType
  | throws
  | access (kind : AccessKind)
  | typeReference
  | annotationType
  deriving DecidableEq, Repr

namespace DependencyKind

/-- The phrase for a kind of dependency. -/
def phrase : DependencyKind → String
  | superclass => "extends"
  | interface => "implements"
  | fieldType => "has field of type"
  | parameterType => "has parameter of type"
  | returnType => "has return type"
  | throws => "throws"
  | access .getField => "gets field of"
  | access .setField => "sets field of"
  | access .methodCall => "calls method of"
  | access .constructorCall => "calls constructor of"
  | typeReference => "references"
  | annotationType => "is annotated with"

/-- The place of a kind in the order of dependencies. -/
def rank : DependencyKind → Nat
  | superclass => 0
  | interface => 1
  | fieldType => 2
  | parameterType => 3
  | returnType => 4
  | throws => 5
  | access .getField => 6
  | access .setField => 7
  | access .methodCall => 8
  | access .constructorCall => 9
  | typeReference => 10
  | annotationType => 11

end DependencyKind

/-- A dependency of one class on another. -/
structure Dependency where
  origin : ClassId
  target : ClassId
  kind : DependencyKind
  line : Option Nat
  deriving DecidableEq, Repr

end ClassAtlas
