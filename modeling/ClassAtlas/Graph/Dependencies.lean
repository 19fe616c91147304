import ClassAtlas.Graph.Node

/-!
# Dependencies between classes

A class depends on the classes that its declaration and its bodies refer to. A reference
to an array counts for its innermost element; references to primitive types and to the
class itself do not count. Each dependency is listed once, in order of target, kind and
line.
-/

namespace ClassAtlas

/-- A reference of a class to a type, before arrays are opened. -/
structure Reference where
  target : ClassId
  kind : DependencyKind
  line : Option Nat
  deriving DecidableEq, Repr

namespace Reference

/-- References of one kind without a line. -/
def plain (kind : DependencyKind) (target : ClassId) : Reference :=
  { target, kind, line := none }

/-- The references that annotations make. -/
def ofAnnotations (annotations : NodeAnnotations) : List Reference :=
  annotations.flatMap (AnnotationUse.collect
    (fun id => [plain .annotationType id])
    (fun type => type.node?.toList.map (plain .annotationType)))

/-- The references that the signature of a member makes. -/
def ofSignature (member : Member) : List Reference :=
  match member.kind with
  | .field => member.valueType.node?.toList.map (plain .fieldType)
  | _ =>
    (member.parameters.filterMap TypeRef.node?).map (plain .parameterType) ++
      member.valueType.node?.toList.map (plain .returnType) ++
      member.throws.map (plain .throws)

/-- The reference that an access makes. -/
def ofAccess (access : AccessEdge) : Reference :=
  { target := access.owner, kind := .access access.kind, line := some access.line }

/-- The references that a member makes: annotations, signature and body. -/
def ofMember (accesses : Array AccessEdge) (member : Member) : List Reference :=
  ofAnnotations member.annotations ++ ofSignature member ++
    (member.accesses.filterMap fun id => accesses[id]?).map ofAccess

/-- All references that a class makes. -/
def ofClass (members : Array Member) (accesses : Array AccessEdge) (node : ClassNode) :
    List Reference :=
  node.superclass.toList.map (plain .superclass) ++
    node.interfaces.map (plain .interface) ++
    ofAnnotations node.annotations ++
    (node.members.filterMap fun id => members[id]?).flatMap (ofMember accesses) ++
    node.typeReferences.map fun reference =>
      { target := reference.target, kind := .typeReference, line := some reference.line }

end Reference

/-- The innermost element of an array, which is numbered before the array; a class that
is no array is its own. Arrays of primitive types lead to nothing. -/
def innermost (classes : Array ClassNode) (id : ClassId) : Option ClassId :=
  match classes[id]? with
  | none => none
  | some node =>
    match node.component with
    | some component => if component < id then innermost classes component else none
    | none => if node.type.isArray then none else some id

namespace Dependency

/-- Whether a line comes before another; no line comes first. -/
def lineLe : Option Nat → Option Nat → Bool
  | none, _ => true
  | some _, none => false
  | some left, some right => left ≤ right

/-- The order of dependencies: by origin, target, kind and line. -/
def le (left right : Dependency) : Bool :=
  if left.origin ≠ right.origin then left.origin < right.origin
  else if left.target ≠ right.target then left.target < right.target
  else if left.kind.rank ≠ right.kind.rank then left.kind.rank < right.kind.rank
  else lineLe left.line right.line

/-- The dependency that a reference of a class makes, if it makes one. -/
def ofReference? (classes : Array ClassNode) (origin : ClassId) (reference : Reference) :
    Option Dependency :=
  match innermost classes reference.target with
  | some target =>
    if target = origin then none
    else some { origin, target, kind := reference.kind, line := reference.line }
  | none => none

/-- The dependencies of a class, in order and each once. -/
def ofClass (classes : Array ClassNode) (members : Array Member) (accesses : Array AccessEdge)
    (node : ClassNode) : List Dependency :=
  let found := (Reference.ofClass members accesses node).filterMap
    (ofReference? classes node.id)
  (found.mergeSort le).eraseReps

end Dependency

end ClassAtlas
