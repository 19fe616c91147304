import ClassAtlas.Graph.ClassGraph
import ClassAtlas.Graph.Declaration
import ClassAtlas.Graph.Resolution

/-!
# Linking a pool

Linking turns the records of a pool into a class graph. First the types of all records are
read; a record with a malformed type is dropped with a diagnostic. Then all mentioned
classes are numbered, the records fill their nodes, ancestors are computed, and at last
the bodies are linked: each access becomes an edge to the member it means.
-/

namespace ClassAtlas

namespace ClassPool

/-- Each record with the outcome of reading its types, in order of the names. -/
def typings (pool : ClassPool) : List (PoolRecord × Except SpellingError RecordTypes) :=
  pool.entries.map fun entry => (entry, RecordTypes.ofRecord entry.record)

/-- The names that are known to be missing. -/
def missingNames (pool : ClassPool) : List String :=
  pool.slots.toList.filterMap fun row =>
    match row.2 with
    | .present _ => none
    | .missing => some row.1

end ClassPool

namespace Link

/-- A record whose types could be read. -/
def typed? : PoolRecord × Except SpellingError RecordTypes → Option TypedRecord
  | (entry, .ok types) => some { entry, types }
  | (_, .error _) => none

/-- The diagnostic of a record whose types could not be read. -/
def diagnostic? : PoolRecord × Except SpellingError RecordTypes → Option Diagnostic
  | (_, .ok _) => none
  | (entry, .error problem) => some {
      kind := .parse, uri := entry.source.uri
      message := "class " ++ entry.record.name ++ ": " ++ problem.message }

/-- Number all classes: declared ones first, then missing ones, then those mentioned. -/
def number (records : List TypedRecord) (missing : List String) : ClassTable :=
  let declared := records.map fun typed => typed.types.this
  let absent := missing.filterMap fun name => (TypeName.ofClassName name).toOption
  let mentioned := records.flatMap fun typed => typed.types.mentions
  (({} : ClassTable).internAll declared |>.internAll absent).internAll mentioned

/-- The nodes with what their records declare. -/
def declaredNodes (table : ClassTable) (declared : List (TypedRecord × Declarations)) :
    Array ClassNode :=
  declared.foldl
    (fun classes (typed, declarations) =>
      classes.modify declarations.owner (ClassNode.declare table typed declarations))
    table.stubs

/-- The nodes with their ancestors. -/
def withAncestors (classes : Array ClassNode) : Array ClassNode :=
  classes.map fun node => { node with ancestors := Hierarchy.ancestors classes node.id }

/-- The nodes with the classes nested in them. -/
def withNestedClasses (classes : Array ClassNode) : Array ClassNode :=
  let nested := buckets classes.size
    (classes.toList.filterMap fun node => node.enclosingClass.map fun outer => (outer, node.id))
  classes.map fun node => { node with nestedClasses := nested[node.id]?.getD [] }

/-- The method that a local class is declared in. -/
def enclosingMethod (classes : Array ClassNode) (members : Array Member) (nesting : Nesting)
    (owner : ClassId) : MethodRef :=
  let candidates := ((classes[owner]?.map ClassNode.members).getD []).filterMap
    fun id => members[id]?
  { owner
    name := nesting.enclosingMethod.map Prod.fst
    descriptor := nesting.enclosingMethod.map Prod.snd
    resolved := nesting.enclosingMethod.bind fun (name, descriptor) =>
      (candidates.find? fun member =>
        member.kind != .field && member.name = name && member.descriptor = descriptor).map
          Member.id }

/-- The nodes of local classes with the methods they are declared in. -/
def withEnclosingMethods (members : Array Member)
    (declared : List (TypedRecord × Declarations)) (classes : Array ClassNode) :
    Array ClassNode :=
  declared.foldl
    (fun filled (typed, declarations) =>
      let nesting := typed.entry.record.nesting
      if nesting.isLocal then
        filled.modify declarations.owner fun node =>
          { node with enclosingMethod :=
              node.enclosingClass.map (enclosingMethod classes members nesting) }
      else filled)
    classes

/-- A method of a record with its types and its member. -/
structure Body where
  origin : MemberId
  method : MethodRecord
  types : MethodTypes

/-- The bodies of a record in order. -/
def bodies (typed : TypedRecord) (declarations : Declarations) : List Body :=
  (typed.methods.zip declarations.methods).map fun ((method, types), member) =>
    { origin := member.id, method, types }

/-- The accesses of a body with the class that each names; accesses to primitive types are
left out. -/
def Body.accesses (table : ClassTable) (body : Body) : List (AccessRecord × ClassId) :=
  (body.method.accesses.zip body.types.accessOwners).filterMap fun (access, owner) =>
    (table.id? owner).map fun id => (access, id)

/-- The classes that a body refers to. -/
def Body.typeReferences (table : ClassTable) (body : Body) : List TypeReference :=
  (body.method.typeMentions.zip body.types.typeMentions).filterMap fun (mention, type) =>
    (table.id? type).map fun target => { origin := body.origin, target, line := mention.line }

/-- The edge of an access. -/
def edge (classes : Array ClassNode) (members : Array Member) (id : AccessId)
    (origin : MemberId) (access : AccessRecord) (owner : ClassId) : AccessEdge :=
  let target : AccessTarget :=
    { kind := access.kind, name := access.name, descriptor := access.descriptor }
  { id, origin, kind := access.kind, owner, name := access.name
    descriptor := access.descriptor, line := access.line
    resolved := (target.resolve classes members owner).map Member.id }

/-- The edges of all bodies, numbered in order. -/
def edges (table : ClassTable) (classes : Array ClassNode) (members : Array Member)
    (all : List Body) : List AccessEdge :=
  let pending := all.flatMap fun body =>
    (body.accesses table).map fun (access, owner) => (body.origin, access, owner)
  pending.zipIdx.map fun ((origin, access, owner), id) =>
    edge classes members id origin access owner

/-- The members with the accesses they make. -/
def withAccesses (members : Array Member) (accesses : List AccessEdge) : Array Member :=
  let outgoing := buckets members.size
    (accesses.map fun access => (access.origin, access.id))
  members.map fun member => { member with accesses := outgoing[member.id]?.getD [] }

/-- The nodes with the classes that their bodies refer to. -/
def withTypeReferences (table : ClassTable) (declared : List (TypedRecord × Declarations))
    (classes : Array ClassNode) : Array ClassNode :=
  declared.foldl
    (fun filled (typed, declarations) =>
      filled.modify declarations.owner fun node =>
        { node with typeReferences :=
            (bodies typed declarations).flatMap (Body.typeReferences table) })
    classes

/-- The graph of typed records and missing names. -/
def graph (records : List TypedRecord) (missing : List String) : ClassGraph :=
  let table := number records missing
  let declared := declareAll table 0 records
  let members := (declared.flatMap fun (_, declarations) => declarations.members).toArray
  let nodes := withAncestors (declaredNodes table declared)
  let bodies := declared.flatMap fun (typed, declarations) => bodies typed declarations
  let accesses := edges table nodes members bodies
  let classes := withTypeReferences table declared
    (withEnclosingMethods members declared (withNestedClasses nodes))
  ClassGraph.ofParts classes (withAccesses members accesses) accesses.toArray

end Link

/-- Link a pool: the graph, and all diagnostics of the pool and of linking. -/
def ClassPool.link (pool : ClassPool) : ClassGraph × List Diagnostic :=
  let typings := pool.typings
  (Link.graph (typings.filterMap Link.typed?) pool.missingNames,
    pool.diagnostics ++ typings.filterMap Link.diagnostic?)

end ClassAtlas
