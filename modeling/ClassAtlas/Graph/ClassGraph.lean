import ClassAtlas.Artifact
import ClassAtlas.Bucket
import ClassAtlas.Graph.Dependencies
import ClassAtlas.Resolver
import Std.Data.TreeMap

/-!
# The class graph

A class graph holds all classes, members and accesses of an import by number. The views
against the direction of the edges (subtypes, incoming accesses, dependencies in both
directions) are computed once, when the graph is made, and the graph never changes.
-/

namespace ClassAtlas

/-- Classes, members and accesses, with views in the other direction. -/
structure ClassGraph where
  classes : Array ClassNode
  members : Array Member
  accesses : Array AccessEdge
  dependencies : Array Dependency
  byName : Std.TreeMap String ClassId compare
  subtypes : Array (List ClassId)
  accessesToMember : Array (List AccessId)
  accessesToClass : Array (List AccessId)
  dependenciesFrom : Array (List Nat)
  dependenciesTo : Array (List Nat)

namespace ClassGraph

/-- The classes that an access counts for: the one that the code names, and the one that
declares the resolved member if that is another. -/
def accessedClasses (members : Array Member) (access : AccessEdge) : List ClassId :=
  match access.resolved.bind fun id => members[id]? with
  | some member =>
    if member.owner = access.owner then [access.owner] else [access.owner, member.owner]
  | none => [access.owner]

/-- The graph of given classes, members and accesses. -/
def ofParts (classes : Array ClassNode) (members : Array Member) (accesses : Array AccessEdge) :
    ClassGraph :=
  let dependencies := classes.toList.flatMap (Dependency.ofClass classes members accesses)
  { classes, members, accesses
    dependencies := dependencies.toArray
    byName := classes.foldl (fun known node => known.insert node.name node.id) ∅
    subtypes := buckets classes.size (classes.toList.flatMap fun node =>
      node.supertypes.map fun parent => (parent, node.id))
    accessesToMember := buckets members.size (accesses.toList.filterMap fun access =>
      access.resolved.map fun member => (member, access.id))
    accessesToClass := buckets classes.size (accesses.toList.flatMap fun access =>
      (accessedClasses members access).map fun owner => (owner, access.id))
    dependenciesFrom := buckets classes.size
      (dependencies.zipIdx.map fun (dependency, index) => (dependency.origin, index))
    dependenciesTo := buckets classes.size
      (dependencies.zipIdx.map fun (dependency, index) => (dependency.target, index)) }

/-- The graph without classes. -/
def empty : ClassGraph := ofParts #[] #[] #[]

/-- The number of classes, stubs and arrays included. -/
def size (graph : ClassGraph) : Nat := graph.classes.size

/-- The class with a name, in any spelling of class names. -/
def find? (graph : ClassGraph) (name : String) : Option ClassNode :=
  match graph.byName[name]? with
  | some id => graph.classes[id]?
  | none =>
    match TypeName.ofClassName name with
    | .ok type => graph.byName[type.name]?.bind fun id => graph.classes[id]?
    | .error _ => none

/-- The binary name of a numbered class. -/
def className (graph : ClassGraph) (id : ClassId) : String :=
  (graph.classes[id]?.map ClassNode.name).getD ""

/-- Classes made from class files. -/
def resolvedClasses (graph : ClassGraph) : List ClassNode :=
  graph.classes.toList.filter fun node => !node.isStub

/-- Classes that were imported: neither stubs nor found through a resolver. -/
def importedClasses (graph : ClassGraph) : List ClassNode :=
  graph.classes.toList.filter ClassNode.isImported

/-- The members of a class. -/
def membersOf (graph : ClassGraph) (node : ClassNode) : List Member :=
  node.members.filterMap fun id => graph.members[id]?

/-- The accesses with given numbers. -/
def accessesAt (graph : ClassGraph) (ids : List AccessId) : List AccessEdge :=
  ids.filterMap fun id => graph.accesses[id]?

/-- The accesses that the members of a class make. -/
def accessesFromClass (graph : ClassGraph) (node : ClassNode) : List AccessEdge :=
  (graph.membersOf node).flatMap fun member => graph.accessesAt member.accesses

/-- The accesses that mean a member. -/
def accessesToMemberId (graph : ClassGraph) (id : MemberId) : List AccessEdge :=
  graph.accessesAt (graph.accessesToMember[id]?.getD [])

/-- The accesses that name a class or mean one of its members. -/
def accessesToClassId (graph : ClassGraph) (id : ClassId) : List AccessEdge :=
  graph.accessesAt (graph.accessesToClass[id]?.getD [])

/-- The classes directly below a class. -/
def directSubtypes (graph : ClassGraph) (id : ClassId) : List ClassId :=
  graph.subtypes[id]?.getD []

/-- The dependencies with given places. -/
def dependenciesAt (graph : ClassGraph) (places : List Nat) : List Dependency :=
  places.filterMap fun place => graph.dependencies[place]?

/-- The dependencies of a class on others. -/
def dependenciesOf (graph : ClassGraph) (id : ClassId) : List Dependency :=
  graph.dependenciesAt (graph.dependenciesFrom[id]?.getD [])

/-- The dependencies of others on a class. -/
def dependenciesOn (graph : ClassGraph) (id : ClassId) : List Dependency :=
  graph.dependenciesAt (graph.dependenciesTo[id]?.getD [])

/-- Whether a class is the named class or has it among its ancestors. -/
def isAssignableTo (graph : ClassGraph) (node : ClassNode) (target : String) : Bool :=
  match graph.find? target with
  | some found => node.id = found.id || node.ancestors.contains found.id
  | none => false

/-- The first member of a class with a name, and with a descriptor if one is given. -/
def findMember? (graph : ClassGraph) (node : ClassNode) (name : String)
    (descriptor : Option String) : Option Member :=
  (graph.membersOf node).find? fun member =>
    member.name = name && descriptor.all fun wanted => member.descriptor = wanted

/-- The text for a member: its owner, its name, and for methods the descriptor. -/
def describe (graph : ClassGraph) (member : Member) : String :=
  let owner := graph.className member.owner
  if member.descriptor.toList.head? = some '(' then
    owner ++ "." ++ member.name ++ member.descriptor
  else owner ++ "." ++ member.name

/-- Search the class file of a class again. -/
def loadArtifact (node : ClassNode) (resolver : Resolver) : Except ResolveError Artifact := do
  Resolver.checkClassType node.name
  match ← resolver.locate node.name with
  | some artifact => return artifact
  | none => throw (.notFound node.name)

end ClassGraph

end ClassAtlas
