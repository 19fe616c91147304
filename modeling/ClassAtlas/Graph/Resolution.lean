import ClassAtlas.Graph.Hierarchy
import ClassAtlas.Types.Descriptor

/-!
# Resolving accesses

An access names a class and a member. The member is searched in that class, then up its
superclass chain, then among its other ancestors. Of several declarations found there,
those whose class has a declaring descendant among them are set aside; of the rest the
first that is not abstract is taken, or else the first.
-/

namespace ClassAtlas

/-- What an access looks for. -/
structure AccessTarget where
  kind : AccessKind
  name : String
  descriptor : String
  deriving DecidableEq

namespace AccessTarget

/-- Whether a member is what an access looks for. Fields go by name, constructors by
descriptor, methods by name and parameters. -/
def accepts (target : AccessTarget) (member : Member) : Bool :=
  match target.kind with
  | .getField | .setField => member.kind = .field && member.name = target.name
  | .constructorCall => member.kind = .constructor && member.descriptor = target.descriptor
  | .methodCall =>
    member.kind = .method && member.name = target.name &&
      MethodDescriptor.parameterPart member.descriptor =
        MethodDescriptor.parameterPart target.descriptor

/-- The first member of a class that an access accepts. -/
def declaredIn (classes : Array ClassNode) (members : Array Member) (target : AccessTarget)
    (id : ClassId) : Option Member :=
  ((classes[id]?.map ClassNode.members).getD []).findSome? fun member =>
    members[member]?.filter target.accepts

/-- Whether some other candidate is declared by a descendant of a candidate's class. -/
def isOverridden (classes : Array ClassNode) (candidates : List Member) (candidate : Member) :
    Bool :=
  candidates.any fun other =>
    other.owner != candidate.owner &&
      ((classes[other.owner]?.map ClassNode.ancestors).getD []).contains candidate.owner

/-- Choose among declarations outside the superclass chain. A single one is taken as it
is. -/
def choose (classes : Array ClassNode) : List Member → Option Member
  | [] => none
  | [candidate] => some candidate
  | candidates =>
    let derived := candidates.filter fun candidate => !isOverridden classes candidates candidate
    (derived.find? fun candidate => !candidate.isAbstract).or derived.head?

/-- The member that an access to a class means. Constructors are not inherited. -/
def resolve (classes : Array ClassNode) (members : Array Member) (owner : ClassId)
    (target : AccessTarget) : Option Member :=
  match target.declaredIn classes members owner with
  | some member => some member
  | none =>
    if target.kind = .constructorCall then none
    else
      let ancestors := (classes[owner]?.map ClassNode.ancestors).getD []
      let line := Hierarchy.lineAlong classes ancestors (Hierarchy.superclass classes owner)
      match line.findSome? (target.declaredIn classes members) with
      | some member => some member
      | none =>
        let others := ancestors.drop line.length
        choose classes (others.filterMap (target.declaredIn classes members))

end AccessTarget

end ClassAtlas
