import ClassAtlas.Proofs.OwnDependencies

/-!
# Classes in names

Nodes refer to each other and to members by numbers, which change with every class that is linked
besides. The profile of a class says the same in names: its own, where it comes from, those of its
supertypes, and what its members are. It depends on the record of the class and on nothing else in
the pool, whether the classes that it names were found or not. So the profiles of the resolved
classes of a graph are those of the records that could be read.
-/

namespace ClassAtlas

section Listing

variable {α β : Type}

/-- Fields and methods in the order in which a class lists them: fields, constructors, methods, and
of static initializers the last. -/
def listedByKind (kind : α → MemberKind) (fields methods : List α) : List α :=
  fields ++ methods.filter (fun item => kind item = .constructor) ++
    methods.filter (fun item => kind item = .method) ++
      (methods.filter fun item => kind item = .staticInitializer).getLast?.toList

/-- Listing goes by the kinds alone. -/
theorem map_listedByKind {kind : α → MemberKind} {other : β → MemberKind} (change : α → β)
    (same : ∀ item, other (change item) = kind item) (fields methods : List α) :
    (listedByKind kind fields methods).map change =
      listedByKind other (fields.map change) (methods.map change) := by
  have filtered (wanted : MemberKind) :
      (methods.map change).filter (fun item => other item = wanted) =
        (methods.filter fun item => kind item = wanted).map change := by
    rw [List.filter_map]
    refine congrArg (List.map change) (List.filter_congr fun item _ => ?_)
    rw [Function.comp_apply, same]
  simp only [listedByKind, filtered, List.map_append, List.getLast?_map]
  cases (methods.filter fun item => kind item = .staticInitializer).getLast? <;> rfl

/-- Everything that is listed by kind is a field or a method. -/
theorem mem_of_mem_listedByKind {kind : α → MemberKind} {fields methods : List α} {item : α}
    (isListed : item ∈ listedByKind kind fields methods) : item ∈ fields ++ methods := by
  simp only [listedByKind, List.mem_append, List.mem_filter, Option.mem_toList] at isListed
  rw [List.mem_append]
  rcases isListed with ((isField | isConstructor) | isMethod) | isInitializer
  · exact Or.inl isField
  · exact Or.inr isConstructor.1
  · exact Or.inr isMethod.1
  · exact Or.inr (List.mem_filter.mp (List.mem_of_getLast? isInitializer)).1

end Listing

/-- A member by its kind, name and descriptor. -/
structure MemberOutline where
  kind : MemberKind
  name : String
  descriptor : String
  deriving DecidableEq, Repr

/-- The outline of a member of a graph. -/
def Member.outline (member : Member) : MemberOutline :=
  ⟨member.kind, member.name, member.descriptor⟩

/-- The outline of a member as its record gives it. -/
def MemberRecord.outline (member : MemberRecord) : MemberOutline :=
  ⟨member.kind, member.name, member.descriptor⟩

/-- A class without numbers. -/
structure ClassProfile where
  name : String
  resolution : Resolution
  superclass : Option String
  interfaces : List String
  members : List MemberOutline
  deriving DecidableEq, Repr

namespace ClassGraph

/-- The profile of a class of the graph. -/
def profile (graph : ClassGraph) (node : ClassNode) : ClassProfile where
  name := node.name
  resolution := node.resolution
  superclass := node.superclass.map graph.className
  interfaces := node.interfaces.map graph.className
  members := (graph.membersOf node).map Member.outline

/-- The profiles of all classes that were made from records. -/
def profiles (graph : ClassGraph) : List ClassProfile := graph.resolvedClasses.map graph.profile

end ClassGraph

/-- The name of a type that is not primitive. -/
def TypeName.className? (type : TypeName) : Option String :=
  if type.isPrimitive then none else some type.name

/-- The profile that a record gives its class. -/
def TypedRecord.profile (typed : TypedRecord) : ClassProfile where
  name := typed.entry.record.name
  resolution := .resolved typed.entry.source typed.entry.pulledIn
  superclass := typed.types.superclass.bind TypeName.className?
  interfaces := typed.types.interfaces.filterMap TypeName.className?
  members := (listedByKind MemberRecord.kind (typed.entry.record.fields.map .field)
    (typed.entry.record.methods.map .method)).map MemberRecord.outline

/-- A class lists its declarations by kind. -/
theorem Declarations.listing_eq (declarations : Declarations) :
    declarations.listing =
      (listedByKind Member.kind declarations.fields declarations.methods).map Member.id := by
  simp only [listing, ofKind, listedByKind, List.map_append, List.getLast?_map]
  cases (declarations.methods.filter
    fun member => member.kind = .staticInitializer).getLast? <;> rfl

namespace Link

variable {records : List TypedRecord} {missing : List String}

/-- A type that is mentioned has its name in the graph, unless it is primitive. -/
theorem className_id? {type : TypeName} (known : (number records missing).Knows type) :
    ((number records missing).id? type).map (graph records missing).className =
      type.className? := by
  rw [TypeName.className?]
  split
  · rename_i primitive
    simp [ClassTable.id?, primitive]
  · rename_i reference
    have found := known.id?_eq (by simpa using reference)
    rw [found, Option.map_some, (graph_names found).className_eq]

/-- A member that a record declares has the outline that it was declared with. -/
theorem outline_of_row {typed : TypedRecord} {declarations : Declarations}
    (row : (typed, declarations) ∈ rows records missing) {member : Member}
    (declared : member ∈ declarations.members) :
    (graph records missing).members[member.id]?.map Member.outline = some member.outline := by
  obtain ⟨outgoing, same⟩ := @graph_members_map records missing
  rw [same, Array.getElem?_map, getElem?_allMembers_of_row row declared]
  rfl

/-- Members keep the kinds, names and descriptors of what they are made from. -/
theorem outlines_ofTyped {table : ClassTable} {start : MemberId} {typed : TypedRecord}
    (read : RecordTypes.ReadFrom typed.entry.record typed.types) :
    (Declarations.ofTyped table start typed).fields.map Member.outline =
        (typed.entry.record.fields.map MemberRecord.field).map MemberRecord.outline ∧
      (Declarations.ofTyped table start typed).methods.map Member.outline =
        (typed.entry.record.methods.map MemberRecord.method).map MemberRecord.outline := by
  constructor
  · rw [← map_fst_zip_read read.fields, ← TypedRecord.fields]
    simp only [Declarations.ofTyped, List.map_map]
    conv_rhs => rw [← List.zipIdx_map_fst start typed.fields, List.map_map]
    rfl
  · rw [← map_fst_zip_read read.methods, ← TypedRecord.methods]
    simp only [Declarations.ofTyped, List.map_map]
    conv_rhs =>
      rw [← List.zipIdx_map_fst (start + typed.fields.length) typed.methods, List.map_map]
    rfl

section Row

variable (distinct : Distinct records missing) {typed : TypedRecord} {declarations : Declarations}
  (row : (typed, declarations) ∈ rows records missing) {node : ClassNode}
  (stands : (graph records missing).classes[declarations.owner]? = some node)

include distinct row stands

/-- The supertypes of the class of a record have the names that the record gives them. -/
theorem supertypes_of_row :
    node.superclass.map (graph records missing).className =
        typed.types.superclass.bind TypeName.className? ∧
      node.interfaces.map (graph records missing).className =
        typed.types.interfaces.filterMap TypeName.className? := by
  obtain ⟨_, same⟩ := graph_view_of_row distinct row stands
    (fun node => (node.superclass, node.interfaces)) (fun _ => rfl) fun _ _ => rfl
  obtain ⟨superclass, interfaces⟩ := Prod.mk.inj same
  have known {type : TypeName} (above : type ∈ typed.types.superclass.toList ++
      typed.types.interfaces) : (number records missing).Knows type := by
    refine number_knows records missing (mem_rows row).1 type (List.mem_cons_of_mem _ ?_)
    simp only [RecordTypes.mentions, List.append_assoc]
    rw [← List.append_assoc]
    exact List.mem_append_left _ above
  rw [superclass, interfaces]
  constructor
  · cases isSuperclass : typed.types.superclass with
    | none => simp [ClassNode.declare, isSuperclass]
    | some type =>
      have above : type ∈ typed.types.superclass.toList ++ typed.types.interfaces := by
        simp [isSuperclass]
      simp only [ClassNode.declare, isSuperclass, Option.bind_some]
      exact className_id? (known above)
  · simp only [ClassNode.declare, ClassTable.ids, List.map_filterMap]
    exact List.filterMap_congr fun type listed =>
      className_id? (known (List.mem_append_right _ listed))

/-- The class of a record lists members with the outlines of what the record declares. -/
theorem outlines_of_row (read : RecordTypes.ReadFrom typed.entry.record typed.types) :
    ((graph records missing).membersOf node).map Member.outline =
      (listedByKind MemberRecord.kind (typed.entry.record.fields.map .field)
        (typed.entry.record.methods.map .method)).map MemberRecord.outline := by
  have declared : ∀ member ∈ listedByKind Member.kind declarations.fields declarations.methods,
      (graph records missing).members[member.id]?.map Member.outline =
        (some ∘ Member.outline) member :=
    fun member isListed => outline_of_row row (mem_of_mem_listedByKind isListed)
  obtain ⟨_, start, rfl⟩ := mem_rows row
  obtain ⟨fields, methods⟩ := @outlines_ofTyped (number records missing) start typed read
  calc ((graph records missing).membersOf node).map Member.outline
      = (listedByKind Member.kind _ _).filterMap fun member =>
          (graph records missing).members[member.id]?.map Member.outline := by
        rw [ClassGraph.membersOf, graph_members_of_row distinct row stands,
          Declarations.listing_eq, List.map_filterMap, List.filterMap_map]
        rfl
    _ = (listedByKind Member.kind _ _).map Member.outline := by
        rw [List.filterMap_congr declared, List.filterMap_eq_map]
    _ = (listedByKind MemberRecord.kind _ _).map MemberRecord.outline := by
        have ofMember (member : Member) : member.outline.kind = member.kind := rfl
        have ofRecord (member : MemberRecord) : member.outline.kind = member.kind := rfl
        rw [map_listedByKind Member.outline ofMember, fields, methods,
          ← map_listedByKind MemberRecord.outline ofRecord]

end Row

end Link

namespace ClassPool

variable {pool : ClassPool} (filed : pool.Filed)

include filed

/-- The class of a record has the profile that the record gives it. -/
theorem Filed.profile_of_typed {typed : TypedRecord} (listed : typed ∈ pool.typedRecords)
    {node : ClassNode}
    (stands : pool.link.1.classes[
      (Link.number pool.typedRecords pool.missingNames).id typed.types.this]? = some node) :
    pool.link.1.profile node = typed.profile := by
  obtain ⟨_, row⟩ := @Link.exists_row pool.typedRecords pool.missingNames typed listed
  obtain ⟨_, start, rfl⟩ := Link.mem_rows row
  obtain ⟨superclass, interfaces⟩ := Link.supertypes_of_row filed.distinct row stands
  have members := Link.outlines_of_row filed.distinct row stands
    (readFrom_of_mem_typedRecords listed)
  obtain ⟨_, resolution⟩ := Link.graph_view_of_row filed.distinct row stands ClassNode.resolution
    (fun _ => rfl) fun _ _ => rfl
  have name : node.name = typed.entry.record.name := by
    have named := graph_name_of_typed listed
    rw [← link_graph, stands, (filed.this_eq listed).2] at named
    exact Option.some.inj named
  rw [ClassGraph.profile, TypedRecord.profile, ClassProfile.mk.injEq]
  exact ⟨name, resolution, superclass, interfaces, members⟩

/-- The profiles of the classes of a pool are those that its readable records give. -/
theorem Filed.mem_profiles_iff {profile : ClassProfile} :
    profile ∈ pool.link.1.profiles ↔ ∃ typed ∈ pool.typedRecords, typed.profile = profile := by
  simp only [ClassGraph.profiles, ClassGraph.resolvedClasses, List.mem_map, List.mem_filter,
    Array.mem_toList_iff, ClassNode.isStub, Bool.not_eq_true', decide_eq_false_iff_not]
  constructor
  · rintro ⟨node, ⟨inGraph, resolved⟩, rfl⟩
    obtain ⟨id, stands⟩ := Array.mem_iff_getElem?.mp inGraph
    obtain ⟨typed, listed, rfl, _⟩ := (Link.graph_resolution stands).resolve_left resolved
    exact ⟨typed, listed, (filed.profile_of_typed listed stands).symm⟩
  · rintro ⟨typed, listed, rfl⟩
    obtain ⟨node, stands, _⟩ := Option.map_eq_some_iff.mp (graph_name_of_typed listed)
    exact ⟨node, ⟨Array.mem_of_getElem? stands, Link.graph_not_stub listed stands⟩,
      filed.profile_of_typed listed stands⟩

omit filed in
/-- No two classes of a pool have one name. -/
theorem profiles_nodup (pool : ClassPool) :
    (pool.link.1.profiles.map ClassProfile.name).Nodup := by
  rw [ClassGraph.profiles, List.map_map]
  exact Link.graph_names_nodup.sublist (List.filter_sublist.map ClassNode.name)

end ClassPool

end ClassAtlas
