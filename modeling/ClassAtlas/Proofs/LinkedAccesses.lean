import ClassAtlas.Proofs.LinkedClasses

/-!
# The accesses of a linked pool

Linking numbers the members of all records in one pass and the accesses of their bodies in a later
one. Both numberings are described here by lists that are read off the records of the pool alone:
what the readable records declare, in order, and what the methods among these access. The members
and the edges of the graph are shown to be these lists, entry by entry, so that no declaration and
no access is lost, repeated or given to another.

The passes keep three lists side by side: the methods of a record, their types and their members.
They are zipped again for the bodies. That they have the same length and order is proved by making
each of them from one list of typed declarations.
-/

namespace ClassAtlas

/-- A declared field or method. -/
inductive MemberRecord
  | field (record : FieldRecord)
  | method (record : MethodRecord)

namespace MemberRecord

/-- The kind of the member. -/
def kind : MemberRecord → MemberKind
  | field _ => .field
  | method record => .ofMethodName record.name

/-- The name of the member. -/
def name : MemberRecord → String
  | field record => record.name
  | method record => record.name

/-- The descriptor of the member. -/
def descriptor : MemberRecord → String
  | field record => record.descriptor
  | method record => record.descriptor

/-- The method, if the member is one. -/
def method? : MemberRecord → Option MethodRecord
  | field _ => none
  | method record => some record

end MemberRecord

/-- What a record declares, in order: its fields, then its methods. -/
def ClassRecord.members (record : ClassRecord) : List MemberRecord :=
  record.fields.map .field ++ record.methods.map .method

/-- The accesses of a body that lead to a class: all but those to primitive types. -/
def MethodRecord.uses (method : MethodRecord) : List AccessRecord :=
  method.accesses.filter fun access => (Primitive.ofKeyword? access.owner).isNone

namespace ClassPool

/-- The records whose types can be read, in order of their names. -/
def readableRecords (pool : ClassPool) : List ClassRecord :=
  (pool.entries.map PoolRecord.record).filter fun record => (RecordTypes.ofRecord record).isOk

/-- All members that these records declare, in order. -/
def declared (pool : ClassPool) : List (ClassRecord × MemberRecord) :=
  pool.readableRecords.flatMap fun record => record.members.map (record, ·)

/-- Their methods, in order, each with its place among all members. -/
def methods (pool : ClassPool) : List (MemberId × MethodRecord) :=
  pool.declared.zipIdx.filterMap fun ((_, member), number) => member.method?.map (number, ·)

/-- The accesses of all methods that lead to classes, in order. -/
def uses (pool : ClassPool) : List (MemberId × AccessRecord) :=
  pool.methods.flatMap fun (origin, method) => method.uses.map (origin, ·)

end ClassPool

/-- A declared field or method with its types. -/
inductive TypedMember
  | field (record : FieldRecord) (types : FieldTypes)
  | method (record : MethodRecord) (types : MethodTypes)

/-- The declaration without its types. -/
def TypedMember.untyped : TypedMember → MemberRecord
  | field record _ => .field record
  | method record _ => .method record

namespace TypedRecord

/-- What the record declares, in order and with its types. -/
def members (typed : TypedRecord) : List TypedMember :=
  typed.fields.map (fun (field, types) => .field field types) ++
    typed.methods.map fun (method, types) => .method method types

/-- The member that a declaration of the record becomes. -/
def member (table : ClassTable) (typed : TypedRecord) (id : MemberId) : TypedMember → Member
  | .field field types => .ofField table (table.id typed.types.this) id field types
  | .method method types => .ofMethod table (table.id typed.types.this) id method types

/-- Without their types, the members of a typed record are those of the record. -/
theorem untyped_members {typed : TypedRecord}
    (read : RecordTypes.ReadFrom typed.entry.record typed.types) :
    typed.members.map TypedMember.untyped = typed.entry.record.members := by
  rw [members, ClassRecord.members, ← map_fst_zip_read read.fields,
    ← map_fst_zip_read read.methods]
  simp only [fields, methods, List.map_append, List.map_map]
  rfl

end TypedRecord

/-- Items zipped with what their places make of them. -/
theorem zip_map_zipIdx {α β : Type} (items : List α) (first : Nat) (change : α × Nat → β) :
    items.zip ((items.zipIdx first).map change) =
      (items.zipIdx first).map fun row => (row.1, change row) := by
  induction items generalizing first with
  | nil => rfl
  | cons item rest inductionHypothesis => simp [inductionHypothesis]

namespace Link

section Declared

variable (table : ClassTable) (first : MemberId)

/-- All that records declare, in order. -/
def typedMembers (records : List TypedRecord) : List (TypedRecord × TypedMember) :=
  records.flatMap fun typed => typed.members.map (typed, ·)

/-- The members of the first record come before those of the others. -/
theorem typedMembers_cons (typed : TypedRecord) (rest : List TypedRecord) :
    typedMembers (typed :: rest) = typed.members.map (typed, ·) ++ typedMembers rest := rfl

/-- The body of a declared member with its number, if it is a method. -/
def body? (member : TypedMember) (origin : MemberId) : Option Body :=
  match member with
  | .field _ _ => none
  | .method method types => some { origin, method, types }

/-- The members that a record declares are its typed members, numbered in order. -/
theorem ofTyped_members (typed : TypedRecord) :
    (Declarations.ofTyped table first typed).members =
      (typed.members.zipIdx first).map fun (member, id) => typed.member table id member := by
  simp only [Declarations.members, Declarations.ofTyped, TypedRecord.members, List.map_append,
    List.map_map, List.zipIdx_append, List.zipIdx_map, List.length_map]
  rfl

/-- The bodies of a record are those of its methods, under the numbers of their members. -/
theorem bodies_ofTyped (typed : TypedRecord) :
    bodies typed (.ofTyped table first typed) =
      (typed.members.zipIdx first).filterMap fun (member, id) => body? member id := by
  simp only [bodies, Declarations.ofTyped, TypedRecord.members, zip_map_zipIdx, List.map_map,
    List.zipIdx_append, List.zipIdx_map, List.length_map, List.filterMap_append,
    List.filterMap_map]
  simp [Function.comp_def, body?, Member.ofMethod]

/-- Declaring records makes a member of each declaration, numbered in order. -/
theorem declaredMembers_declareAll (records : List TypedRecord) :
    declaredMembers (declareAll table first records) =
      ((typedMembers records).zipIdx first).map
        fun ((typed, member), id) => typed.member table id member := by
  induction records generalizing first with
  | nil => rfl
  | cons typed rest inductionHypothesis =>
    have split : declaredMembers (declareAll table first (typed :: rest)) =
        (Declarations.ofTyped table first typed).members ++
          declaredMembers (declareAll table
            (first + (Declarations.ofTyped table first typed).members.length) rest) := rfl
    rw [split, inductionHypothesis, ofTyped_members, typedMembers_cons, List.zipIdx_append,
      List.map_append]
    simp [List.zipIdx_map]

/-- The bodies are those of the methods among them, under the same numbers. -/
theorem bodies_declareAll (records : List TypedRecord) :
    (declareAll table first records).flatMap (fun (typed, declarations) =>
        bodies typed declarations) =
      ((typedMembers records).zipIdx first).filterMap fun ((_, member), id) => body? member id := by
  induction records generalizing first with
  | nil => rfl
  | cons typed rest inductionHypothesis =>
    rw [declareAll, List.flatMap_cons, inductionHypothesis, ofTyped_members, typedMembers_cons,
      List.zipIdx_append]
    simp [List.zipIdx_map, List.filterMap_map, bodies_ofTyped]

end Declared

end Link

namespace ClassPool

variable (pool : ClassPool)

/-- The types of a typed record are read from its texts. -/
theorem readFrom_of_mem_typedRecords {pool : ClassPool} {typed : TypedRecord}
    (isTyped : typed ∈ pool.typedRecords) :
    RecordTypes.ReadFrom typed.entry.record typed.types :=
  RecordTypes.readFrom_of_read (mem_typedRecords_iff.mp isTyped).2

/-- The records that can be read are those that are typed. -/
theorem readableRecords_eq :
    pool.readableRecords = pool.typedRecords.map fun typed => typed.entry.record := by
  rw [readableRecords, typedRecords, typings, List.filterMap_map]
  induction pool.entries with
  | nil => rfl
  | cons entry rest inductionHypothesis =>
    rw [List.map_cons, List.filter_cons, List.filterMap_cons, Function.comp_apply,
      inductionHypothesis]
    cases RecordTypes.ofRecord entry.record <;> rfl

/-- What a pool declares are the typed members of its records, without their types. -/
theorem declared_eq : pool.declared =
    (Link.typedMembers pool.typedRecords).map
      fun (typed, member) => (typed.entry.record, member.untyped) := by
  rw [declared, readableRecords_eq, Link.typedMembers, List.flatMap_map, List.map_flatMap]
  refine List.flatMap_congr fun typed isTyped => ?_
  rw [← TypedRecord.untyped_members (readFrom_of_mem_typedRecords isTyped), List.map_map,
    List.map_map]
  rfl

/-- The methods of a pool are those of the bodies that are linked, under the same numbers. -/
theorem methods_eq : pool.methods =
    (Link.allBodies pool.typedRecords pool.missingNames).map
      fun body => (body.origin, body.method) := by
  rw [Link.allBodies, Link.rows, Link.bodies_declareAll, methods, declared_eq, List.zipIdx_map,
    List.filterMap_map, List.map_filterMap]
  refine List.filterMap_congr ?_
  rintro ⟨⟨typed, member⟩, number⟩ _
  cases member <;> rfl

/-- The accesses that a pool makes are those of the bodies that are linked, in the same order. -/
theorem uses_eq : pool.uses = (Link.allBodies pool.typedRecords pool.missingNames).flatMap
    fun body => body.method.uses.map (body.origin, ·) := by
  rw [uses, methods_eq, List.flatMap_map]

end ClassPool

/-- The number of the class that an access names. -/
def AccessRecord.ownerIn (table : ClassTable) (access : AccessRecord) : ClassId :=
  ((TypeName.ofClassName access.owner).toOption.map table.id).getD 0

namespace Link

variable {records : List TypedRecord} {missing : List String}

/-- A body is that of a method that a record declares. -/
theorem exists_typed_of_body {body : Body} (listed : body ∈ allBodies records missing) :
    ∃ typed ∈ records, (body.method, body.types) ∈ typed.methods := by
  obtain ⟨⟨typed, declarations⟩, row, inRow⟩ := List.mem_flatMap.mp listed
  obtain ⟨⟨⟨method, types⟩, member⟩, paired, rfl⟩ := List.mem_map.mp inRow
  exact ⟨typed, (mem_rows row).1, (List.of_mem_zip paired).1⟩

/-- Where all owners are known, exactly the accesses that lead to classes get a number. -/
theorem Body.accesses_eq {table : ClassTable} {body : Body}
    (read : MethodTypes.ReadFrom body.method body.types)
    (known : ∀ type ∈ body.types.accessOwners, table.Knows type) :
    body.accesses table = body.method.uses.map fun access => (access, access.ownerIn table) := by
  have reads := mapM_eq_ok_iff.mp read.accessOwners
  rw [Body.accesses, MethodRecord.uses]
  generalize body.method.accesses = accesses at reads
  generalize body.types.accessOwners = owners at reads known
  induction reads with
  | nil => rfl
  | @cons access owner _ _ reading _ inductionHypothesis =>
    obtain ⟨knows, others⟩ := List.forall_mem_cons.mp known
    have primitive := TypeName.isPrimitive_of_ofClassName reading
    rw [List.zip_cons_cons, List.filterMap_cons, List.filter_cons, inductionHypothesis others]
    cases keyword : Primitive.ofKeyword? access.owner with
    | some kind => simp [ClassTable.id?, primitive, keyword]
    | none =>
      rw [keyword, Option.isSome_none] at primitive
      obtain ⟨id, found⟩ := knows.id?_isSome primitive
      simp [found, AccessRecord.ownerIn, reading, Except.toOption, ClassTable.id]

/-- The edges are those of the accesses that lead to classes, numbered in order. -/
theorem edges_eq {table : ClassTable} {classes : Array ClassNode} {members : Array Member}
    {all : List Body}
    (read : ∀ body ∈ all, MethodTypes.ReadFrom body.method body.types)
    (known : ∀ body ∈ all, ∀ type ∈ body.types.accessOwners, table.Knows type) :
    edges table classes members all =
      (all.flatMap fun body => body.method.uses.map (body.origin, ·)).zipIdx.map
        fun ((origin, access), id) =>
          edge classes members id origin access (access.ownerIn table) := by
  have pending : (all.flatMap fun body => (body.accesses table).map (body.origin, ·)) =
      (all.flatMap fun body => body.method.uses.map (body.origin, ·)).map
        fun row => (row.1, row.2, row.2.ownerIn table) := by
    rw [List.map_flatMap]
    refine List.flatMap_congr fun body listed => ?_
    rw [Body.accesses_eq (read body listed) (known body listed), List.map_map, List.map_map]
    rfl
  change (all.flatMap fun body => (body.accesses table).map (body.origin, ·)).zipIdx.map
    (fun row => edge classes members row.2 row.1.1 row.1.2.1 row.1.2.2) = _
  rw [pending, List.zipIdx_map, List.map_map]
  rfl

/-- Accesses of a graph are found under their numbers. -/
theorem getElem?_graph_accesses_of_mem {access : AccessEdge}
    (listed : access ∈ (graph records missing).accesses) :
    (graph records missing).accesses[access.id]? = some access := by
  obtain ⟨place, stands⟩ := Array.mem_iff_getElem?.mp listed
  have numbered : access.id = place := by
    rw [graph_accesses, List.getElem?_toArray] at stands
    exact id_of_getElem?_edges stands
  rw [numbered]
  exact stands

/-- So looking the numbers of accesses up gives the accesses. -/
theorem graph_accessesAt_map_id {selected : List AccessEdge}
    (listed : ∀ access ∈ selected, access ∈ (graph records missing).accesses) :
    (graph records missing).accessesAt (selected.map AccessEdge.id) = selected := by
  rw [ClassGraph.accessesAt, List.filterMap_map]
  refine (List.filterMap_congr fun access inside => ?_).trans List.filterMap_some
  exact getElem?_graph_accesses_of_mem (listed access inside)

/-- A member lists the accesses that come from it, in order. -/
theorem graph_outgoing : Throughout (graph records missing).members fun number member =>
    member.accesses = ((graph records missing).accesses.toList.filter
      fun access => access.origin = number).map AccessEdge.id := by
  intro number member stands
  rw [graph_members, withAccesses, Array.getElem?_map, Option.map_eq_some_iff] at stands
  obtain ⟨declared, atNumber, rfl⟩ := stands
  have inside := id_lt_size_allMembers atNumber
  obtain rfl := id_of_getElem?_allMembers atNumber
  dsimp only
  rw [getElem?_buckets _ _ _ inside, Option.getD_some, List.filter_map, List.map_map]
  rfl

end Link

/-- The number is that of the class with the name, which no other class has. -/
def ClassGraph.Names (graph : ClassGraph) (id : ClassId) (name : String) : Prop :=
  ∀ other : ClassId, graph.classes[other]?.map ClassNode.name = some name ↔ other = id

/-- The number of a type is that of the class of its name. -/
theorem Link.graph_names {records : List TypedRecord} {missing : List String} {type : TypeName}
    {id : ClassId} (found : (number records missing).id? type = some id) :
    (graph records missing).Names id type.name := by
  intro other
  constructor
  · intro named
    obtain ⟨node, stands, sameName⟩ := Option.map_eq_some_iff.mp named
    obtain ⟨owner, atId, ownerName⟩ := Option.map_eq_some_iff.mp (graph_name_of_id? found)
    exact graph_name_injective stands atId (sameName.trans ownerName.symm)
  · rintro rfl
    exact graph_name_of_id? found

/-- A member stands for a declaration of a record: it has the number and the texts of the
declaration, and belongs to the class that the record declares. -/
structure Member.Realizes (graph : ClassGraph) (record : ClassRecord) (declaration : MemberRecord)
    (number : MemberId) (member : Member) : Prop where
  id : member.id = number
  owner : ∃ type, TypeName.ofDeclaredName record.name = .ok type ∧
    graph.Names member.owner type.name
  kind : member.kind = declaration.kind
  name : member.name = declaration.name
  descriptor : member.descriptor = declaration.descriptor

/-- An edge stands for an access of a body: it has the texts and the line of the access, and leads
to the class that the access names. -/
structure AccessEdge.Realizes (graph : ClassGraph) (origin : MemberId) (access : AccessRecord)
    (number : AccessId) (edge : AccessEdge) : Prop where
  id : edge.id = number
  origin : edge.origin = origin
  kind : edge.kind = access.kind
  owner : ∃ type, TypeName.ofClassName access.owner = .ok type ∧ graph.Names edge.owner type.name
  name : edge.name = access.name
  descriptor : edge.descriptor = access.descriptor
  line : edge.line = access.line

/-- The members and the accesses of a graph are those of a pool, one for one and in order, and each
member lists the accesses that come from it. -/
structure ClassGraph.AccessesExact (graph : ClassGraph) (pool : ClassPool) : Prop where
  members : List.Forall₂ (fun ((record, declaration), number) member =>
    Member.Realizes graph record declaration number member)
    pool.declared.zipIdx graph.members.toList
  accesses : List.Forall₂ (fun ((origin, access), number) edge =>
    AccessEdge.Realizes graph origin access number edge) pool.uses.zipIdx graph.accesses.toList
  outgoing : Throughout graph.members fun number member => member.accesses =
    (graph.accesses.toList.filter fun access => access.origin = number).map AccessEdge.id

namespace ClassPool

variable (pool : ClassPool)

/-- The members of the graph realize, one by one and in order, what the pool declares. -/
theorem link_members_realize : List.Forall₂ (fun ((record, declaration), number) member =>
    Member.Realizes pool.link.1 record declaration number member)
    pool.declared.zipIdx pool.link.1.members.toList := by
  rw [link_graph, Link.graph_members, Link.withAccesses, Array.toList_map, Link.allMembers,
    Link.rows, Link.declaredMembers_declareAll, declared_eq, List.zipIdx_map,
    List.forall₂_map_left_iff, List.forall₂_map_right_iff, List.forall₂_map_right_iff,
    List.forall₂_same]
  rintro ⟨⟨typed, member⟩, number⟩ listed
  have isTyped : typed ∈ pool.typedRecords := by
    obtain ⟨typed, isTyped, inRecord⟩ := List.mem_flatMap.mp (List.fst_mem_of_mem_zipIdx listed)
    obtain ⟨_, _, same⟩ := List.mem_map.mp inRecord
    cases same
    exact isTyped
  have owner := Link.graph_names
    (@Link.id?_this _ pool.missingNames readable_of_mem_typedRecords _ isTyped)
  have this := (readFrom_of_mem_typedRecords isTyped).this
  cases member with
  | field field types => exact ⟨rfl, ⟨_, this, owner⟩, rfl, rfl, rfl⟩
  | method method types => exact ⟨rfl, ⟨_, this, owner⟩, rfl, rfl, rfl⟩

/-- The bodies of a pool were read, and the owners of their accesses are numbered. -/
theorem read_of_mem_allBodies {pool : ClassPool} {body : Link.Body}
    (listed : body ∈ Link.allBodies pool.typedRecords pool.missingNames) :
    MethodTypes.ReadFrom body.method body.types ∧ ∀ type ∈ body.types.accessOwners,
      (Link.number pool.typedRecords pool.missingNames).Knows type := by
  obtain ⟨typed, isTyped, paired⟩ := Link.exists_typed_of_body listed
  have read := read_of_mem_zip (readFrom_of_mem_typedRecords isTyped).methods paired
  refine ⟨MethodTypes.readFrom_of_read read, fun type named => ?_⟩
  apply Link.number_knows_method _ _ isTyped (List.of_mem_zip paired).2
  simp [MethodTypes.mentions, named]

/-- The accesses of the graph are the edges of the accesses that the pool makes, in order. -/
theorem link_accesses_eq : pool.link.1.accesses.toList =
    pool.uses.zipIdx.map fun ((origin, access), id) =>
      Link.edge (Link.nodes pool.typedRecords pool.missingNames)
        (Link.allMembers pool.typedRecords pool.missingNames) id origin access
        (access.ownerIn (Link.number pool.typedRecords pool.missingNames)) := by
  rw [link_graph, Link.graph_accesses, uses_eq]
  exact Link.edges_eq (fun body listed => (read_of_mem_allBodies listed).1)
    fun body listed => (read_of_mem_allBodies listed).2

/-- What a body accesses leads to a class of the graph. -/
theorem owner_of_mem_uses {origin : MemberId} {access : AccessRecord}
    (listed : (origin, access) ∈ pool.uses) :
    ∃ type, TypeName.ofClassName access.owner = .ok type ∧
      (Link.number pool.typedRecords pool.missingNames).id? type =
        some (access.ownerIn (Link.number pool.typedRecords pool.missingNames)) := by
  rw [uses_eq] at listed
  obtain ⟨body, inAll, made⟩ := List.mem_flatMap.mp listed
  obtain ⟨_, used, same⟩ := List.mem_map.mp made
  cases same
  obtain ⟨read, known⟩ := read_of_mem_allBodies inAll
  -- The body pairs the access with its number, which it looked up by the type that was read.
  have accessed : (access, access.ownerIn (Link.number pool.typedRecords pool.missingNames)) ∈
      body.accesses (Link.number pool.typedRecords pool.missingNames) := by
    rw [Link.Body.accesses_eq read known]
    exact List.mem_map_of_mem used
  obtain ⟨⟨_, owner⟩, paired, numbered⟩ := List.mem_filterMap.mp accessed
  obtain ⟨id, found, same⟩ := Option.map_eq_some_iff.mp numbered
  obtain ⟨rfl, rfl⟩ := Prod.mk.inj same
  exact ⟨owner, read_of_mem_zip read.accessOwners paired, found⟩

/-- The accesses of the graph realize, one by one and in order, those that the pool makes. -/
theorem link_accesses_realize : List.Forall₂ (fun ((origin, access), number) edge =>
    AccessEdge.Realizes pool.link.1 origin access number edge)
    pool.uses.zipIdx pool.link.1.accesses.toList := by
  rw [link_accesses_eq, List.forall₂_map_right_iff, List.forall₂_same]
  rintro ⟨⟨origin, access⟩, number⟩ listed
  obtain ⟨type, read, found⟩ := pool.owner_of_mem_uses (List.fst_mem_of_mem_zipIdx listed)
  exact ⟨rfl, rfl, rfl, ⟨type, read, Link.graph_names found⟩, rfl, rfl, rfl⟩

/-- Linking a pool neither loses nor repeats an access. The accesses of the graph are those of the
readable records in order of their names, of their methods and of the instructions in these; each
comes from the member of its method, which lists exactly its own, and leads to the class that it
names. -/
theorem link_accesses_exact : pool.link.1.AccessesExact pool :=
  ⟨pool.link_members_realize, pool.link_accesses_realize, Link.graph_outgoing⟩

end ClassPool

end ClassAtlas
