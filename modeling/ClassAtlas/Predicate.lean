import ClassAtlas.Graph.ClassGraph
import ClassAtlas.Pattern.PackagePattern

/-!
# Predicates on classes

Predicates select classes of a graph: by package, by name, by supertype, by annotation, by
what is known of them, and by combinations of these. Every predicate has a description.
-/

namespace ClassAtlas

/-- A test on the classes of a graph. -/
inductive Predicate
  | residesIn (pattern : PackagePattern)
  | nameLike (glob : Glob)
  | assignableTo (name : String)
  | annotatedWith (name : String)
  | stub
  | interface
  | negation (inner : Predicate)
  | conjunction (left right : Predicate)
  | disjunction (left right : Predicate)

namespace Predicate

/-- The binary name that a spelling stands for; a text that is no type stands for itself. -/
def normalName (name : String) : String :=
  match TypeName.ofClassName name with
  | .ok type => type.name
  | .error _ => name

/-- Classes that reside in a package. -/
def ofPackage (text : String) : Except PatternError Predicate :=
  (PackagePattern.parse text).map residesIn

/-- Classes whose binary name matches a glob. -/
def ofName (text : String) : Except PatternError Predicate :=
  match Glob.parse text with
  | .ok glob => .ok (nameLike glob)
  | .error error => .error { pattern := text, fault := .glob error.fault }

/-- Classes that are a given class or descend from it. -/
def ofSupertype (name : String) : Predicate := assignableTo (normalName name)

/-- Classes that carry an annotation of a given type. -/
def ofMarker (name : String) : Predicate := annotatedWith (normalName name)

/-- Whether a class of a graph passes the test. -/
def test (graph : ClassGraph) (node : ClassNode) : Predicate → Bool
  | residesIn pattern => !node.type.isArray && pattern.accepts node.package
  | nameLike glob => glob.accepts node.name
  | assignableTo name => graph.isAssignableTo node name
  | annotatedWith name => node.annotations.any fun use => graph.className use.type = name
  | stub => node.isStub
  | interface => node.isInterface
  | negation inner => !inner.test graph node
  | conjunction left right => left.test graph node && right.test graph node
  | disjunction left right => left.test graph node || right.test graph node

/-- The description of a predicate. -/
def description : Predicate → String
  | residesIn pattern => "reside in a package '" ++ pattern.text ++ "'"
  | nameLike glob => "have name matching '" ++ glob.text ++ "'"
  | assignableTo name => "be assignable to " ++ name
  | annotatedWith name => "be annotated with @" ++ name
  | stub => "be unresolved"
  | interface => "be interfaces"
  | negation inner => "not " ++ inner.description
  | conjunction left right => left.description ++ " and " ++ right.description
  | disjunction left right => left.description ++ " or " ++ right.description

/-- The classes of a graph that pass the test, in order of their numbers. -/
def select (graph : ClassGraph) (predicate : Predicate) : List ClassNode :=
  graph.classes.toList.filter fun node => predicate.test graph node

end Predicate

end ClassAtlas
