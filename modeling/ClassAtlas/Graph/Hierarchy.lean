import ClassAtlas.Graph.Node
import ClassAtlas.Reachability

/-!
# Ancestors

The ancestors of a class are all classes that its supertypes lead to: first the chain of
superclasses, then the interfaces breadth first. A hierarchy that runs in a circle is no
obstacle, and no class is its own ancestor.
-/

namespace ClassAtlas.Hierarchy

/-- The superclass of a class. -/
def superclass (classes : Array ClassNode) (id : ClassId) : Option ClassId :=
  classes[id]?.bind ClassNode.superclass

/-- The interfaces of a class. -/
def interfaces (classes : Array ClassNode) (id : ClassId) : List ClassId :=
  (classes[id]?.map ClassNode.interfaces).getD []

/-- The interfaces of a class and then its superclass. -/
def upward (classes : Array ClassNode) (id : ClassId) : List ClassId :=
  interfaces classes id ++ (superclass classes id).toList

/-- The superclass, its superclass, and so on until that ends or comes round. -/
def superclassChain (classes : Array ClassNode) (id : ClassId) : List ClassId :=
  Reachability.chain (superclass classes) classes.size [id] (superclass classes id)

/-- The ancestors outside the superclass chain. -/
def otherAncestors (classes : Array ClassNode) (id : ClassId) : List ClassId :=
  let line := id :: superclassChain classes id
  Reachability.explore (upward classes) classes.size line (line.flatMap (interfaces classes))

/-- All ancestors of a class. -/
def ancestors (classes : Array ClassNode) (id : ClassId) : List ClassId :=
  superclassChain classes id ++ otherAncestors classes id

/-- The superclasses that a list of ancestors starts with: they are followed from a first
one as long as the list agrees. -/
def lineAlong (classes : Array ClassNode) : List ClassId → Option ClassId → List ClassId
  | listed :: rest, some id =>
    if id = listed then id :: lineAlong classes rest (superclass classes id) else []
  | _, _ => []

end ClassAtlas.Hierarchy
