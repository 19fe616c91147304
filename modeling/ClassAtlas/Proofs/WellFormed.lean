import ClassAtlas.Proofs.Ancestors
import ClassAtlas.Proofs.Passes
import ClassAtlas.Proofs.Resolution
import Mathlib.Data.List.Nodup

/-!
# Linked graphs are well formed

In a linked graph every class, member and access stands at its own number, no two classes
share a name, and every number stored anywhere is that of an entry: in the hierarchy, in
signatures and annotations at any depth, in member lists, in accesses and in what they
resolve to. An array is a stub below the root class, and its component stands before it.

Each pass is shown to keep the numbers of nodes within bounds. What a record brings in are
numbers of types it mentions, all of which were given one before the first node was made.
Numbers are natural numbers here, so that no count is too large for them.
-/

namespace ClassAtlas

/-- A type in a signature refers to a class below a count, or to none. -/
def TypeRef.Within (classCount : Nat) : TypeRef → Prop
  | .primitive _ => True
  | .node id => id < classCount

/-- All types in annotations, at any depth, refer to classes below a count. -/
def AnnotationsWithin (classCount : Nat) (annotations : NodeAnnotations) : Prop :=
  ∀ annotation ∈ annotations, annotation.Every (· < classCount) (TypeRef.Within classCount)

/-- A node stands at its number, and all numbers it stores are those of entries. -/
structure ClassNode.Within (classCount memberCount : Nat) (number : ClassId) (node : ClassNode) :
    Prop where
  id : node.id = number
  superclass : ∀ parent ∈ node.superclass, parent < classCount
  interfaces : ∀ parent ∈ node.interfaces, parent < classCount
  component : ∀ part ∈ node.component, part < classCount
  enclosingClass : ∀ outer ∈ node.enclosingClass, outer < classCount
  enclosingMethod : ∀ method ∈ node.enclosingMethod, method.owner < classCount ∧
    ∀ member ∈ method.resolved, member < memberCount
  nestedClasses : ∀ inner ∈ node.nestedClasses, inner < classCount
  annotations : AnnotationsWithin classCount node.annotations
  typeReferences : ∀ reference ∈ node.typeReferences,
    reference.origin < memberCount ∧ reference.target < classCount
  ancestors : ∀ ancestor ∈ node.ancestors, ancestor < classCount
  members : ∀ member ∈ node.members, member < memberCount

/-- A member stands at its number, and all numbers it stores are those of entries. -/
structure Member.Within (classCount accessCount : Nat) (number : MemberId) (member : Member) :
    Prop where
  id : member.id = number
  owner : member.owner < classCount
  valueType : member.valueType.Within classCount
  parameters : ∀ parameter ∈ member.parameters, parameter.Within classCount
  throws : ∀ thrown ∈ member.throws, thrown < classCount
  annotations : AnnotationsWithin classCount member.annotations
  accesses : ∀ access ∈ member.accesses, access < accessCount

/-- An access stands at its number, and all numbers it stores are those of entries. -/
structure AccessEdge.Within (classCount memberCount : Nat) (number : AccessId)
    (access : AccessEdge) : Prop where
  id : access.id = number
  origin : access.origin < memberCount
  owner : access.owner < classCount
  resolved : ∀ member ∈ access.resolved, member < memberCount

/-- A graph whose entries stand at their numbers, with distinct names, no number that leads
nowhere, and arrays that are stubs over their components. -/
structure ClassGraph.WellFormed (graph : ClassGraph) : Prop where
  classes : Throughout graph.classes
    (ClassNode.Within graph.classes.size graph.members.size)
  members : Throughout graph.members (Member.Within graph.classes.size graph.accesses.size)
  accesses : Throughout graph.accesses
    (AccessEdge.Within graph.classes.size graph.members.size)
  names : (graph.classes.toList.map ClassNode.name).Nodup
  arrays : ∀ (id : ClassId) (node : ClassNode) (component : TypeName),
    graph.classes[id]? = some node → node.type = .array component →
      node.isStub = true ∧
      (∃ root ∈ node.superclass,
        graph.classes[root]?.map ClassNode.name = some "java.lang.Object") ∧
      (node.component = none ↔ component.isPrimitive = true) ∧
      ∀ part ∈ node.component, part < id ∧
        graph.classes[part]?.map ClassNode.name = some component.name

namespace ClassTable

variable {table : ClassTable}

/-- The number of a known class or array is below the number of types. -/
theorem Sound.id_lt_size (sound : Sound table) {type : TypeName} (known : Knows table type)
    (reference : type.isPrimitive = false) : table.id type < table.types.size := by
  obtain ⟨number, found⟩ := known.id?_isSome reference
  rw [ClassTable.id, found]
  exact sound.id?_lt_size found

/-- References to known types stay inside the table. -/
theorem Sound.ref_within (sound : Sound table) {type : TypeName} (known : Knows table type) :
    (table.ref type).Within table.types.size := by
  cases type with
  | primitive kind => trivial
  | object name => exact sound.id_lt_size known rfl
  | array component => exact sound.id_lt_size known rfl

/-- Numbers of types stay inside the table. -/
theorem Sound.ids_lt_size (sound : Sound table) (types : List TypeName) :
    ∀ number ∈ table.ids types, number < table.types.size := by
  intro number listed
  obtain ⟨type, _, found⟩ := List.mem_filterMap.mp listed
  exact sound.id?_lt_size found

/-- The number of an optional type stays inside the table. -/
theorem Sound.bind_id?_lt_size (sound : Sound table) (type : Option TypeName) :
    ∀ number ∈ type.bind table.id?, number < table.types.size := by
  intro number found
  obtain ⟨named, _, found⟩ := Option.bind_eq_some_iff.mp found
  exact sound.id?_lt_size found

/-- Annotations of known types stay inside the table. -/
theorem Sound.annotations_within (sound : Sound table) {typed : TypedAnnotations}
    (references : ReferenceAnnotations typed)
    (known : ∀ type ∈ annotationMentions typed, Knows table type) :
    AnnotationsWithin table.types.size (table.annotations typed) := by
  have replaces : ReplacesInto (fun type : TypeName => type.isPrimitive = false) (Knows table)
      table.id table.ref (· < table.types.size) (TypeRef.Within table.types.size) :=
    ⟨fun _ reference knows => sound.id_lt_size knows reference,
      fun _ knows => sound.ref_within knows⟩
  intro annotation listed
  obtain ⟨source, present, rfl⟩ := List.mem_map.mp listed
  exact AnnotationUse.every_replaced replaces source (references source present)
    fun type mentioned => known type (List.mem_flatMap.mpr ⟨source, present, mentioned⟩)

/-- A stub refers to the root class and to its component only. -/
theorem Sound.stub_within (sound : Sound table) (memberCount : Nat) (number : ClassId)
    (type : TypeName) : (table.stub number type).Within table.types.size memberCount number where
  id := rfl
  superclass := by
    intro parent found
    simp only [stub] at found
    split at found
    · exact sound.id?_lt_size found
    · simp at found
  interfaces := by simp [stub]
  component := sound.bind_id?_lt_size type.component?
  enclosingClass := by simp [stub]
  enclosingMethod := by simp [stub]
  nestedClasses := by simp [stub]
  annotations := by simp [stub, AnnotationsWithin]
  typeReferences := by simp [stub]
  ancestors := by simp [stub]
  members := by simp [stub, ClassNode.members]

end ClassTable

namespace Link

variable {records : List TypedRecord} {missing : List String}

/-- Filling a node from the record of a row keeps it within bounds. -/
theorem declare_within {typed : TypedRecord} {declarations : Declarations}
    (readable : typed.types.Readable) (listed : (typed, declarations) ∈ rows records missing)
    {number : ClassId} {node : ClassNode}
    (within : node.Within (Link.number records missing).types.size
      (allMembers records missing).size number) :
    (node.declare (Link.number records missing) typed declarations).Within
      (Link.number records missing).types.size (allMembers records missing).size number where
  id := within.id
  superclass := (number_sound records missing).bind_id?_lt_size _
  interfaces := (number_sound records missing).ids_lt_size _
  component := within.component
  enclosingClass := (number_sound records missing).bind_id?_lt_size _
  enclosingMethod := within.enclosingMethod
  nestedClasses := within.nestedClasses
  annotations := by
    apply (number_sound records missing).annotations_within readable.annotations
    intro type mentioned
    apply number_knows records missing (mem_rows listed).1
    simp [RecordTypes.mentions, mentioned]
  typeReferences := within.typeReferences
  ancestors := within.ancestors
  members := by
    intro id present
    obtain ⟨member, declared, rfl⟩ := ClassNode.mem_members_declare present
    exact id_lt_size_allMembers (getElem?_allMembers_of_row listed declared)

/-- The nodes are within bounds when all records are declared. -/
theorem declaredNodes_within (readable : ∀ typed ∈ records, typed.types.Readable) :
    Throughout (declaredNodes (number records missing) (rows records missing))
      (ClassNode.Within (number records missing).types.size (allMembers records missing).size) := by
  refine declaredNodes_throughout ?_ ?_
  · intro id type _
    exact (number_sound records missing).stub_within _ id type
  · intro typed declarations listed node within
    exact declare_within (readable typed (mem_rows listed).1) listed within

/-- Nodes within bounds make a closed hierarchy. -/
theorem closed_of_within {classes : Array ClassNode} {memberCount : Nat}
    (within : Throughout classes (ClassNode.Within classes.size memberCount)) :
    Hierarchy.Closed classes := by
  rintro lower upper ⟨node, stands, named⟩
  rcases List.mem_append.mp named with above | interface
  · exact (within lower node stands).superclass upper (Option.mem_toList.mp above)
  · exact (within lower node stands).interfaces upper interface

/-- Every parent of a declared node is a node. -/
theorem declaredNodes_closed (readable : ∀ typed ∈ records, typed.types.Readable) :
    Hierarchy.Closed (declaredNodes (number records missing) (rows records missing)) := by
  have within := @declaredNodes_within records missing readable
  rw [← size_declaredNodes (number records missing) (rows records missing)] at within
  exact closed_of_within within

/-- The nodes are within bounds when their ancestors are computed. -/
theorem nodes_within (readable : ∀ typed ∈ records, typed.types.Readable) :
    Throughout (nodes records missing)
      (ClassNode.Within (number records missing).types.size (allMembers records missing).size) := by
  refine Throughout.map (declaredNodes_within readable) _ ?_
  intro place node stands within
  refine { within with ancestors := ?_ }
  intro ancestor listed
  have inside : node.id < (declaredNodes (number records missing) (rows records missing)).size :=
    within.id ▸ (Array.getElem?_eq_some_iff.mp stands).1
  have reached := Hierarchy.ancestors_lt_size (declaredNodes_closed readable) inside listed
  simpa only [size_declaredNodes] using reached

/-- Only classes are nested in classes. -/
theorem withNestedClasses_within {classes : Array ClassNode} {classCount memberCount : Nat}
    (sameSize : classes.size = classCount)
    (within : Throughout classes (ClassNode.Within classCount memberCount)) :
    Throughout (withNestedClasses classes) (ClassNode.Within classCount memberCount) := by
  refine Throughout.map within _ ?_
  intro place node _ inBounds
  refine { inBounds with nestedClasses := ?_ }
  intro inner listed
  obtain ⟨other, present, found⟩ := List.mem_filterMap.mp (mem_of_mem_bucket listed)
  obtain ⟨outer, _, same⟩ := Option.map_eq_some_iff.mp found
  obtain ⟨number, stands⟩ := Array.mem_iff_getElem?.mp (Array.mem_toList_iff.mp present)
  have innerIs : other.id = inner := congrArg Prod.snd same
  rw [← innerIs, (within number other stands).id, ← sameSize]
  exact (Array.getElem?_eq_some_iff.mp stands).1

/-- The method found for a local class is one of the members. -/
theorem enclosingMethod_within {classes : Array ClassNode} (nesting : Nesting) {owner : ClassId}
    {classCount : Nat} (inside : owner < classCount) :
    (enclosingMethod classes (allMembers records missing) nesting owner).owner < classCount ∧
      ∀ member ∈ (enclosingMethod classes (allMembers records missing) nesting owner).resolved,
        member < (allMembers records missing).size := by
  refine ⟨inside, ?_⟩
  intro id resolved
  simp only [enclosingMethod, Option.mem_def, Option.bind_eq_some_iff] at resolved
  obtain ⟨_, _, found⟩ := resolved
  obtain ⟨member, chosen, rfl⟩ := Option.map_eq_some_iff.mp found
  obtain ⟨number, _, stands⟩ := List.mem_filterMap.mp (List.mem_of_find?_eq_some chosen)
  exact id_lt_size_allMembers stands

/-- Filling in enclosing methods stays inside the lists. -/
theorem withEnclosingMethods_within {classes : Array ClassNode} {classCount : Nat}
    (within : Throughout classes
      (ClassNode.Within classCount (allMembers records missing).size)) :
    Throughout (withEnclosingMethods (allMembers records missing) (rows records missing) classes)
      (ClassNode.Within classCount (allMembers records missing).size) := by
  refine Throughout.foldl within ?_
  rintro ⟨typed, declarations⟩ _ filled filledWithin
  dsimp only
  split
  · refine Throughout.modify filledWithin _ _ ?_
    intro node inBounds
    refine { inBounds with enclosingMethod := ?_ }
    intro method found
    obtain ⟨outer, enclosing, rfl⟩ := Option.map_eq_some_iff.mp found
    exact enclosingMethod_within _ (inBounds.enclosingClass outer enclosing)
  · exact filledWithin

/-- A body refers to numbered classes, from a method that has a number. -/
theorem typeReferences_within {typed : TypedRecord} {declarations : Declarations}
    (listed : (typed, declarations) ∈ rows records missing) :
    ∀ reference ∈ (bodies typed declarations).flatMap
        (Body.typeReferences (number records missing)),
      reference.origin < (allMembers records missing).size ∧
        reference.target < (number records missing).types.size := by
  intro reference present
  obtain ⟨body, inRow, made⟩ := List.mem_flatMap.mp present
  obtain ⟨⟨⟩, _, found⟩ := List.mem_filterMap.mp made
  obtain ⟨target, known, rfl⟩ := Option.map_eq_some_iff.mp found
  obtain ⟨⟨_, member⟩, paired, rfl⟩ := List.mem_map.mp inRow
  have declared : member ∈ declarations.members :=
    List.mem_append_right _ (List.of_mem_zip paired).2
  exact ⟨id_lt_size_allMembers (getElem?_allMembers_of_row listed declared),
    (number_sound records missing).id?_lt_size known⟩

/-- Filling in references of types stays inside the lists. -/
theorem withTypeReferences_within {classes : Array ClassNode}
    (within : Throughout classes (ClassNode.Within (number records missing).types.size
      (allMembers records missing).size)) :
    Throughout (withTypeReferences (number records missing) (rows records missing) classes)
      (ClassNode.Within (number records missing).types.size (allMembers records missing).size) := by
  refine Throughout.foldl within ?_
  rintro ⟨typed, declarations⟩ listed filled filledWithin
  refine Throughout.modify filledWithin _ _ ?_
  intro node inBounds
  exact { inBounds with typeReferences := typeReferences_within listed }

/-- All nodes of a linked graph are within bounds. -/
theorem graph_classes_within (readable : ∀ typed ∈ records, typed.types.Readable) :
    Throughout (graph records missing).classes
      (ClassNode.Within (number records missing).types.size (allMembers records missing).size) :=
  withTypeReferences_within (withEnclosingMethods_within
    (withNestedClasses_within size_nodes (nodes_within readable)))

/-- A member that a record declares refers to types that the record mentions. It has no
accesses yet. -/
theorem declared_within {typed : TypedRecord} {declarations : Declarations}
    (readable : typed.types.Readable) (listed : (typed, declarations) ∈ rows records missing)
    {member : Member} (declared : member ∈ declarations.members) (accessCount : Nat) :
    member.Within (number records missing).types.size accessCount member.id := by
  have sound := number_sound records missing
  obtain ⟨present, start, rfl⟩ := mem_rows listed
  have owner := sound.id_lt_size (number_knows records missing present _ List.mem_cons_self)
    readable.reference
  rcases Declarations.mem_ofTyped _ _ _ declared with ⟨field, types, zipped, same⟩ |
    ⟨method, types, zipped, same⟩
  · have isField : types ∈ typed.types.fields := (List.of_mem_zip zipped).2
    have mentioned := number_knows_field records missing present isField
    rw [same]
    exact {
      id := rfl
      owner
      valueType := sound.ref_within (mentioned _ List.mem_cons_self)
      parameters := by simp [Member.ofField]
      throws := by simp [Member.ofField]
      annotations := sound.annotations_within (readable.fields types isField)
        fun type named => mentioned type (List.mem_cons_of_mem _ named)
      accesses := by simp [Member.ofField] }
  · have isMethod : types ∈ typed.types.methods := (List.of_mem_zip zipped).2
    have mentioned := number_knows_method records missing present isMethod
    rw [same]
    refine {
      id := rfl
      owner
      valueType := sound.ref_within (mentioned _ (by simp [MethodTypes.mentions]))
      parameters := ?_
      throws := sound.ids_lt_size types.throws
      annotations := sound.annotations_within (readable.methods types isMethod)
        fun type named => mentioned type (by simp [MethodTypes.mentions, named])
      accesses := by simp [Member.ofMethod] }
    intro parameter referenced
    obtain ⟨type, named, rfl⟩ := List.mem_map.mp referenced
    exact sound.ref_within (mentioned type (by simp [MethodTypes.mentions, named]))

/-- All members of a linked graph are within bounds. -/
theorem graph_members_within (readable : ∀ typed ∈ records, typed.types.Readable) :
    Throughout (graph records missing).members (Member.Within (number records missing).types.size
      (graph records missing).accesses.size) := by
  have before : Throughout (allMembers records missing) (Member.Within
      (number records missing).types.size (graph records missing).accesses.size) := by
    intro id member stands
    obtain ⟨typed, declarations, listed, declared⟩ := exists_row_of_getElem?_allMembers stands
    have within := declared_within (readable typed (mem_rows listed).1) listed declared
      (graph records missing).accesses.size
    rwa [id_of_getElem?_allMembers stands] at within
  rw [graph_members]
  refine Throughout.map before _ ?_
  intro id member _ within
  refine { within with accesses := ?_ }
  intro number listed
  obtain ⟨access, present, same⟩ := List.mem_map.mp (mem_of_mem_bucket listed)
  obtain ⟨place, stands⟩ := List.mem_iff_getElem?.mp present
  have numbered : access.id = number := congrArg Prod.snd same
  rw [← numbered, id_of_getElem?_edges stands, graph_accesses, List.size_toArray]
  exact (List.getElem?_eq_some_iff.mp stands).1

/-- The graph has all declared members. -/
@[simp]
theorem size_graph_members :
    (graph records missing).members.size = (allMembers records missing).size := by
  simp [graph_members, withAccesses]

/-- All accesses of a linked graph are within bounds. -/
theorem graph_accesses_within : Throughout (graph records missing).accesses
    (AccessEdge.Within (number records missing).types.size (allMembers records missing).size) := by
  intro id access stands
  rw [graph_accesses, List.getElem?_toArray] at stands
  obtain ⟨body, present, made, owner, accessed, rfl⟩ := exists_body_of_edge stands
  obtain ⟨⟨⟩, _, found⟩ := List.mem_filterMap.mp accessed
  obtain ⟨number, known, same⟩ := Option.map_eq_some_iff.mp found
  obtain ⟨typed, declarations, listed, member, declared, origin⟩ := exists_method_of_body present
  refine ⟨rfl, ?_, ?_, ?_⟩
  · change body.origin < _
    rw [origin]
    exact id_lt_size_allMembers (getElem?_allMembers_of_row listed declared)
  · have isOwner : number = owner := congrArg Prod.snd same
    exact (number_sound records missing).id?_lt_size (isOwner ▸ known)
  · intro target resolved
    obtain ⟨found, chosen, rfl⟩ := Option.map_eq_some_iff.mp resolved
    obtain ⟨place, stands⟩ := AccessTarget.exists_number_of_resolve chosen
    exact id_lt_size_allMembers stands

/-- No two classes of a linked graph share a name. -/
theorem graph_names_nodup :
    ((graph records missing).classes.toList.map ClassNode.name).Nodup := by
  have nameAt (id : ClassId) : ((graph records missing).classes.toList.map ClassNode.name)[id]? =
      (number records missing).types[id]?.map TypeName.name := by
    rw [← graph_types, List.getElem?_map, Array.getElem?_toList, Option.map_map]
    rfl
  rw [List.nodup_iff_getElem?_ne_getElem?]
  intro left right less inside same
  rw [nameAt, nameAt] at same
  simp only [List.length_map, Array.length_toList, size_graph_classes] at inside
  have atLeft := Array.getElem?_eq_getElem (Nat.lt_trans less inside)
  have atRight := Array.getElem?_eq_getElem inside
  rw [atLeft, atRight, Option.map_some, Option.map_some, Option.some.injEq] at same
  exact Nat.ne_of_lt less ((number_sound records missing).injective atLeft atRight same)

/-- No record fills the node of an array, since no array has the name of a record. -/
theorem declaredNodes_arrays (readable : ∀ typed ∈ records, typed.types.Readable) :
    Throughout (declaredNodes (number records missing) (rows records missing)) fun id node =>
      (number records missing).types[id]? = some node.type ∧ ∀ component,
        node.type = .array component → node = (number records missing).stub id node.type := by
  refine declaredNodes_throughout ?_ ?_
  · intro id type atId
    exact ⟨atId, fun _ _ => rfl⟩
  · rintro typed declarations listed node ⟨atOwner, _⟩
    refine ⟨atOwner, fun component isArray => ?_⟩
    obtain ⟨present, start, rfl⟩ := mem_rows listed
    have knows := number_knows records missing present _ List.mem_cons_self
    obtain ⟨id, found⟩ := knows.id?_isSome (readable typed present).reference
    obtain ⟨stored, atId, sameName⟩ := (number_sound records missing).type_of_id? found
    have isOwner : (Declarations.ofTyped (number records missing) start typed).owner = id := by
      simp [Declarations.ofTyped, ClassTable.id, found]
    rw [isOwner, atId, Option.some.injEq] at atOwner
    have arrayName : typed.types.this.name = (TypeName.array component).name := by
      rw [← sameName, atOwner]
      exact congrArg TypeName.name isArray
    exact absurd arrayName ((readable typed present).plain component)

/-- Arrays of a linked graph are stubs below the root class, after their components. -/
theorem graph_arrays (readable : ∀ typed ∈ records, typed.types.Readable) {id : ClassId}
    {node : ClassNode} {component : TypeName}
    (stands : (graph records missing).classes[id]? = some node)
    (isArray : node.type = .array component) :
    node.isStub = true ∧ node.superclass = (number records missing).id? .rootClass ∧
      node.component = (number records missing).id? component := by
  have sameView := @graph_view_declared records missing _
    (fun node => (node.type, node.resolution, node.superclass, node.component))
    (fun _ => rfl) (fun _ _ => rfl) id
  rw [stands, Option.map_some, eq_comm, Option.map_eq_some_iff] at sameView
  obtain ⟨declared, atId, same⟩ := sameView
  simp only [Prod.mk.injEq] at same
  obtain ⟨sameType, sameResolution, sameSuperclass, sameComponent⟩ := same
  have isStub := (declaredNodes_arrays readable id declared atId).2 component
    (sameType.trans isArray)
  rw [sameType, isArray] at isStub
  rw [ClassNode.isStub, ← sameResolution, ← sameSuperclass, ← sameComponent, isStub]
  simp [ClassTable.stub, TypeName.isArray, TypeName.component?]

/-- A number found for a type is that of a class of its name. -/
theorem graph_name_of_id? {type : TypeName} {id : ClassId}
    (found : (number records missing).id? type = some id) :
    (graph records missing).classes[id]?.map ClassNode.name = some type.name := by
  obtain ⟨stored, atId, sameName⟩ := (number_sound records missing).type_of_id? found
  have typeAt := @graph_types records missing id
  rw [atId, Option.map_eq_some_iff] at typeAt
  obtain ⟨node, stands, sameType⟩ := typeAt
  simp [stands, ClassNode.name, sameType, sameName]

/-- Linking readable records gives a well-formed graph. -/
theorem graph_wellFormed (readable : ∀ typed ∈ records, typed.types.Readable) :
    (graph records missing).WellFormed := by
  refine ⟨?_, ?_, ?_, graph_names_nodup, ?_⟩
  · simpa using graph_classes_within readable
  · simpa using graph_members_within readable
  · simpa using graph_accesses_within
  intro id node component stands isArray
  have sound := number_sound records missing
  obtain ⟨isStub, superclass, part⟩ := graph_arrays readable stands isArray
  have typeAt := @graph_types records missing id
  rw [stands, Option.map_some, isArray] at typeAt
  obtain ⟨rootKnown, earlier⟩ := sound.arrays id component typeAt.symm
  obtain ⟨root, rootFound⟩ := Option.isSome_iff_exists.mp
    (Std.TreeMap.mem_iff_isSome_getElem?.mp rootKnown)
  have rootFound : (number records missing).id? .rootClass = some root := by
    simpa [ClassTable.id?, TypeName.rootClass, TypeName.isPrimitive] using rootFound
  refine ⟨isStub, ⟨root, superclass.trans rootFound, graph_name_of_id? rootFound⟩, ?_, ?_⟩
  · rw [part, ClassTable.id?]
    cases primitive : component.isPrimitive with
    | true => simp
    | false =>
      obtain ⟨before, _, found⟩ := earlier primitive
      simp [found]
  · intro place found
    rw [part, Option.mem_def] at found
    refine ⟨?_, graph_name_of_id? found⟩
    cases primitive : component.isPrimitive with
    | true => simp [ClassTable.id?, primitive] at found
    | false =>
      obtain ⟨before, less, known⟩ := earlier primitive
      simp only [ClassTable.id?, primitive, Bool.false_eq_true, if_false, known,
        Option.some.injEq] at found
      exact found ▸ less

end Link

/-- Whatever the records of a pool, linking it gives a well-formed graph. -/
theorem ClassPool.link_wellFormed (pool : ClassPool) : pool.link.1.WellFormed :=
  Link.graph_wellFormed readable_of_mem_typedRecords

end ClassAtlas
