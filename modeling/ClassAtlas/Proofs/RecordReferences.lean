import ClassAtlas.Proofs.MemberLists
import ClassAtlas.Proofs.TypeIdentity

/-!
# What records refer to

A record refers to types by its supertypes, its annotations, the signatures and bodies of what it
declares. Linking puts numbers in place of all these types, and spreads them over the node of the
class, its members and the accesses of these. Read back from there, the numbers that a class refers
to are exactly those of the types that its record refers to, in the same ways and on the same
lines. Of several static initializers only the last takes part, since the class keeps no other;
types that bodies name count wherever they stand.

The numbers are those of one pool. What a record refers to is said by the record alone.
-/

namespace ClassAtlas

section Annotations

/-- Changing a single item gives it changed, or nothing. -/
theorem filterMap_singleton {α β : Type} (change : α → Option β) (item : α) :
    (List.singleton item).filterMap change = (change item).toList := by
  cases changed : change item <;> simp [List.singleton, changed]

/-- What stands for known types tells their numbers, where the types of annotations and enums, of
which more is given, are replaced by these directly. -/
structure ReplacesNumbers {α τ κ : Type} (given known : α → Prop) (replace : α → τ)
    (replaceLiteral : α → κ) (number : α → Option τ) (literal : κ → List τ) : Prop where
  onNamed : ∀ type, given type → known type → number type = some (replace type)
  onLiteral : ∀ type, known type → literal (replaceLiteral type) = (number type).toList

variable {α τ κ : Type} {given known : α → Prop} {replace : α → τ} {replaceLiteral : α → κ}
  {number : α → Option τ} {literal : κ → List τ}

mutual

/-- Numbers that replaced the types in an annotation are those of the types that it mentions, in
order. -/
theorem AnnotationUse.collect_replaced
    (replaces : ReplacesNumbers given known replace replaceLiteral number literal) :
    ∀ typed : AnnotationUse α α, typed.Every given (fun _ => True) →
      (∀ type ∈ typed.collect List.singleton List.singleton, known type) →
        (AnnotationUse.mapTypes (m := Id) replace replaceLiteral typed).collect List.singleton
          literal = (typed.collect List.singleton List.singleton).filterMap number
  | .mk type elements, all, mentioned => by
    rw [AnnotationUse.collect] at mentioned ⊢
    obtain ⟨here, inside⟩ := List.forall_mem_append.mp mentioned
    have own := replaces.onNamed type all.1 (here type (List.mem_singleton_self type))
    rw [List.filterMap_append, ← elementsCollect_replaced replaces elements all.2 inside,
      filterMap_singleton, own]
    rfl

/-- What replaced elements name are the numbers of the types that the elements name. -/
theorem elementsCollect_replaced
    (replaces : ReplacesNumbers given known replace replaceLiteral number literal) :
    ∀ typed : List (Element α α), elementsEvery given (fun _ => True) typed →
      (∀ type ∈ elementsCollect List.singleton List.singleton typed, known type) →
        elementsCollect List.singleton literal
          (elementsTypes (m := Id) replace replaceLiteral typed) =
            (elementsCollect List.singleton List.singleton typed).filterMap number
  | [], _, _ => rfl
  | .mk name value :: rest, all, mentioned => by
    rw [elementsCollect] at mentioned ⊢
    obtain ⟨here, later⟩ := List.forall_mem_append.mp mentioned
    rw [List.filterMap_append, ← ElementValue.collect_replaced replaces value all.1 here,
      ← elementsCollect_replaced replaces rest all.2 later]
    rfl

/-- The same holds for a value, by its kind. -/
theorem ElementValue.collect_replaced
    (replaces : ReplacesNumbers given known replace replaceLiteral number literal) :
    ∀ typed : ElementValue α α, typed.Every given (fun _ => True) →
      (∀ type ∈ typed.collect List.singleton List.singleton, known type) →
        (ElementValue.mapTypes (m := Id) replace replaceLiteral typed).collect List.singleton
          literal = (typed.collect List.singleton List.singleton).filterMap number
  | .literal _, _, _ => rfl
  | .enumConstant type _, all, mentioned => by
    have own := replaces.onNamed type all (mentioned type (List.mem_singleton_self type))
    rw [ElementValue.collect, filterMap_singleton, own]
    rfl
  | .classLiteral type, _, mentioned => by
    have own := replaces.onLiteral type (mentioned type (List.mem_singleton_self type))
    rw [ElementValue.collect, filterMap_singleton, ← own]
    rfl
  | .nested value, all, mentioned => AnnotationUse.collect_replaced replaces value all mentioned
  | .array values, all, mentioned => valuesCollect_replaced replaces values all mentioned

/-- The same holds for values. -/
theorem valuesCollect_replaced
    (replaces : ReplacesNumbers given known replace replaceLiteral number literal) :
    ∀ typed : List (ElementValue α α), valuesEvery given (fun _ => True) typed →
      (∀ type ∈ valuesCollect List.singleton List.singleton typed, known type) →
        valuesCollect List.singleton literal
          (valuesTypes (m := Id) replace replaceLiteral typed) =
            (valuesCollect List.singleton List.singleton typed).filterMap number
  | [], _, _ => rfl
  | value :: rest, all, mentioned => by
    rw [valuesCollect] at mentioned ⊢
    obtain ⟨here, later⟩ := List.forall_mem_append.mp mentioned
    rw [List.filterMap_append, ← ElementValue.collect_replaced replaces value all.1 here,
      ← valuesCollect_replaced replaces rest all.2 later]
    rfl

end

end Annotations

/-- What an annotation names is what is collected from it. -/
theorem AnnotationUse.names_iff {mark : AnnotationUse ClassId TypeRef} {id : ClassId} :
    mark.Names id ↔ id ∈ mark.collect List.singleton fun type => type.node?.toList := by
  rw [AnnotationUse.mem_collect_iff, AnnotationUse.Names]
  constructor
  · rintro (named | literal)
    · exact ⟨_, named, List.mem_singleton_self id⟩
    · exact ⟨_, literal, by simp [TypeRef.node?]⟩
  · rintro ⟨part | part, mentions, given⟩
    · exact Or.inl (List.mem_singleton.mp given ▸ mentions)
    · rw [Sum.elim_inr, Option.mem_toList, TypeRef.node?_eq_some_iff] at given
      exact Or.inr (given ▸ mentions)

namespace ClassTable

variable {table : ClassTable} {type : TypeName} {id : ClassId}

/-- A known type stands in a signature as its number, if it has one. -/
theorem Knows.node?_ref (known : table.Knows type) : (table.ref type).node? = table.id? type := by
  cases type with
  | primitive kind => simp [ref, TypeRef.node?, id?, TypeName.isPrimitive]
  | object name => exact (known.id?_eq rfl).symm
  | array component => exact (known.id?_eq rfl).symm

/-- A known type refers to the class with its number. -/
theorem Knows.ref_eq_node_iff (known : table.Knows type) (id : ClassId) :
    table.ref type = .node id ↔ table.id? type = some id := by
  rw [← TypeRef.node?_eq_some_iff, known.node?_ref]

/-- The numbers of types are those of each of them that has one. -/
theorem mem_ids_iff {types : List TypeName} :
    id ∈ table.ids types ↔ ∃ type ∈ types, table.id? type = some id :=
  List.mem_filterMap

/-- Annotations with numbers in place of types name the classes that they mentioned. -/
theorem names_annotations_iff {typed : TypedAnnotations} (reference : ReferenceAnnotations typed)
    (known : ∀ type ∈ annotationMentions typed, table.Knows type) :
    (∃ mark ∈ table.annotations typed, mark.Names id) ↔
      ∃ type ∈ annotationMentions typed, table.id? type = some id := by
  have replaces : ReplacesNumbers (fun type : TypeName => type.isPrimitive = false) table.Knows
      table.id table.ref table.id? fun type => type.node?.toList :=
    ⟨fun _ isReference knows => Knows.id?_eq knows isReference,
      fun _ knows => congrArg Option.toList (Knows.node?_ref knows)⟩
  have ofMark : ∀ mark ∈ typed,
      (AnnotationUse.mapTypes (m := Id) table.id table.ref mark).Names id ↔
        ∃ type ∈ mark.collect List.singleton List.singleton, table.id? type = some id := by
    intro mark listed
    have inside : ∀ type ∈ mark.collect List.singleton List.singleton, table.Knows type :=
      fun type mentioned => known type (List.mem_flatMap.mpr ⟨mark, listed, mentioned⟩)
    rw [AnnotationUse.names_iff,
      AnnotationUse.collect_replaced replaces mark (reference mark listed) inside,
      List.mem_filterMap]
  simp only [annotations, List.mem_map, annotationMentions, List.mem_flatMap]
  constructor
  · rintro ⟨_, ⟨mark, listed, rfl⟩, names⟩
    obtain ⟨type, mentioned, found⟩ := (ofMark mark listed).mp names
    exact ⟨type, ⟨mark, listed, mentioned⟩, found⟩
  · rintro ⟨type, ⟨mark, listed, mentioned⟩, found⟩
    exact ⟨_, ⟨mark, listed, rfl⟩, (ofMark mark listed).mpr ⟨type, mentioned, found⟩⟩

end ClassTable

/-- How a declaration refers to a type: by its annotations, its signature and its body. -/
inductive TypedMember.Refers : TypedMember → TypeName → DependencyKind → Option Nat → Prop
  | fieldMarked {field : FieldRecord} {types : FieldTypes} {type : TypeName}
      (mentioned : type ∈ annotationMentions types.annotations) :
      Refers (.field field types) type .annotationType none
  | fieldType {field : FieldRecord} {types : FieldTypes} :
      Refers (.field field types) types.value .fieldType none
  | methodMarked {method : MethodRecord} {types : MethodTypes} {type : TypeName}
      (mentioned : type ∈ annotationMentions types.annotations) :
      Refers (.method method types) type .annotationType none
  | parameterType {method : MethodRecord} {types : MethodTypes} {type : TypeName}
      (listed : type ∈ types.descriptor.parameters) :
      Refers (.method method types) type .parameterType none
  | returnType {method : MethodRecord} {types : MethodTypes} :
      Refers (.method method types) types.descriptor.returnType .returnType none
  | throws {method : MethodRecord} {types : MethodTypes} {type : TypeName}
      (listed : type ∈ types.throws) : Refers (.method method types) type .throws none
  | access {method : MethodRecord} {types : MethodTypes} {access : AccessRecord} {type : TypeName}
      (made : (access, type) ∈ method.accesses.zip types.accessOwners) :
      Refers (.method method types) type (.access access.kind) (some access.line)

namespace Member

variable {table : ClassTable} {accesses : Array AccessEdge} {owner : ClassId} {number : MemberId}
  {outgoing : List AccessId} {id : ClassId} {kind : DependencyKind} {line : Option Nat}

/-- A field refers to the numbers of the types that its declaration refers to. -/
theorem refers_ofField_iff {field : FieldRecord} {types : FieldTypes}
    (reference : ReferenceAnnotations types.annotations)
    (known : ∀ type ∈ types.mentions, table.Knows type)
    (idle : ∀ access, ¬ ∃ number ∈ outgoing, accesses[number]? = some access) :
    Refers accesses { ofField table owner number field types with accesses := outgoing } id kind
        line ↔
      ∃ type, TypedMember.Refers (.field field types) type kind line ∧
        table.id? type = some id := by
  have marked := @ClassTable.names_annotations_iff table id _ reference
    fun type named => known type (List.mem_cons_of_mem _ named)
  have value := (known _ List.mem_cons_self).ref_eq_node_iff id
  constructor
  · intro refers
    cases refers with
    | annotated carried names =>
      obtain ⟨type, mentioned, found⟩ := marked.mp ⟨_, carried, names⟩
      exact ⟨type, .fieldMarked mentioned, found⟩
    | fieldType _ type => exact ⟨_, .fieldType, value.mp type⟩
    | parameterType isCode => exact absurd rfl isCode
    | returnType isCode => exact absurd rfl isCode
    | throws isCode => exact absurd rfl isCode
    | access made stands => exact absurd ⟨_, made, stands⟩ (idle _)
  · rintro ⟨type, refers, found⟩
    cases refers with
    | fieldMarked mentioned =>
      obtain ⟨mark, carried, names⟩ := marked.mpr ⟨type, mentioned, found⟩
      exact .annotated carried names
    | fieldType => exact .fieldType rfl (value.mpr found)

/-- So does a method, where its edges are those of the accesses in its body. -/
theorem refers_ofMethod_iff {method : MethodRecord} {types : MethodTypes}
    (reference : ReferenceAnnotations types.annotations)
    (known : ∀ type ∈ types.mentions, table.Knows type)
    (linked : ∀ id kind line, (∃ access, (∃ number ∈ outgoing, accesses[number]? = some access) ∧
      access.owner = id ∧ access.kind = kind ∧ access.line = line) ↔
        ∃ access type, (access, type) ∈ method.accesses.zip types.accessOwners ∧
          table.id? type = some id ∧ access.kind = kind ∧ access.line = line) :
    Refers accesses { ofMethod table owner number method types with accesses := outgoing } id kind
        line ↔
      ∃ type, TypedMember.Refers (.method method types) type kind line ∧
        table.id? type = some id := by
  have isCode := MemberKind.ofMethodName_ne_field method.name
  have marked := @ClassTable.names_annotations_iff table id _ reference
    fun type named => known type (by simp [MethodTypes.mentions, named])
  have returned := (known types.descriptor.returnType
    (by simp [MethodTypes.mentions])).ref_eq_node_iff id
  have parameter (type : TypeName) (listed : type ∈ types.descriptor.parameters) :=
    (known type (by simp [MethodTypes.mentions, listed])).ref_eq_node_iff id
  constructor
  · intro refers
    cases refers with
    | annotated carried names =>
      obtain ⟨type, mentioned, found⟩ := marked.mp ⟨_, carried, names⟩
      exact ⟨type, .methodMarked mentioned, found⟩
    | fieldType isField => exact absurd isField isCode
    | parameterType _ listed =>
      obtain ⟨type, isParameter, isNode⟩ := List.mem_map.mp listed
      exact ⟨type, .parameterType isParameter, (parameter type isParameter).mp isNode⟩
    | returnType _ type => exact ⟨_, .returnType, returned.mp type⟩
    | throws _ listed =>
      obtain ⟨type, isThrown, found⟩ := ClassTable.mem_ids_iff.mp listed
      exact ⟨type, .throws isThrown, found⟩
    | access made stands =>
      obtain ⟨access, type, listed, found, sameKind, sameLine⟩ :=
        (linked _ _ _).mp ⟨_, ⟨_, made, stands⟩, rfl, rfl, rfl⟩
      exact ⟨type, sameKind ▸ sameLine ▸ .access listed, found⟩
  · rintro ⟨type, refers, found⟩
    cases refers with
    | methodMarked mentioned =>
      obtain ⟨mark, carried, names⟩ := marked.mpr ⟨type, mentioned, found⟩
      exact .annotated carried names
    | parameterType listed =>
      exact .parameterType isCode
        (List.mem_map.mpr ⟨type, listed, (parameter type listed).mpr found⟩)
    | returnType => exact .returnType isCode (returned.mpr found)
    | throws listed => exact .throws isCode (ClassTable.mem_ids_iff.mpr ⟨type, listed, found⟩)
    | access listed =>
      obtain ⟨access, ⟨number, made, stands⟩, rfl, sameKind, sameLine⟩ :=
        (linked _ _ _).mpr ⟨_, type, listed, found, rfl, rfl⟩
      exact sameKind ▸ sameLine ▸ .access made stands

end Member

namespace TypedRecord

/-- The class keeps a declaration: any, but of static initializers only the last. -/
def Keeps (typed : TypedRecord) (place : Nat) (member : TypedMember) : Prop :=
  typed.members[place]? = some member ∧ (member.untyped.kind = .staticInitializer →
    ∀ later other, typed.members[later]? = some other →
      other.untyped.kind = .staticInitializer → later ≤ place)

/-- How a record refers to a type: by its supertypes, its annotations, the declarations that its
class keeps, and by the types that bodies name. The line is known for bodies only. -/
inductive Refers (typed : TypedRecord) : TypeName → DependencyKind → Option Nat → Prop
  | superclass {type : TypeName} (above : typed.types.superclass = some type) :
      Refers typed type .superclass none
  | interface {type : TypeName} (above : type ∈ typed.types.interfaces) :
      Refers typed type .interface none
  | annotated {type : TypeName} (mentioned : type ∈ annotationMentions typed.types.annotations) :
      Refers typed type .annotationType none
  | member {place : Nat} {member : TypedMember} {type : TypeName} {kind : DependencyKind}
      {line : Option Nat} (kept : typed.Keeps place member)
      (refers : member.Refers type kind line) : Refers typed type kind line
  | typeReference {method : MethodRecord} {types : MethodTypes} {mention : TypeMention}
      {type : TypeName} (declared : (method, types) ∈ typed.methods)
      (made : (mention, type) ∈ method.typeMentions.zip types.typeMentions) :
      Refers typed type .typeReference (some mention.line)

/-- What a record refers to depends on what it says and on its types. -/
theorem Refers.congr {left right : TypedRecord}
    (sameRecord : left.entry.record = right.entry.record) (sameTypes : left.types = right.types)
    {type : TypeName} {kind : DependencyKind} {line : Option Nat}
    (refers : left.Refers type kind line) : right.Refers type kind line := by
  obtain ⟨⟨record, source, pulledIn⟩, types⟩ := left
  obtain ⟨⟨_, otherSource, otherPulledIn⟩, _⟩ := right
  cases sameRecord
  cases sameTypes
  cases refers with
  | superclass above => exact .superclass above
  | interface above => exact .interface above
  | annotated mentioned => exact .annotated mentioned
  | member kept refers => exact .member kept refers
  | typeReference declared made => exact .typeReference declared made

/-- The types of a declared field are among those of the fields. -/
theorem field_of_getElem? {typed : TypedRecord} {place : Nat} {field : FieldRecord}
    {types : FieldTypes} (stands : typed.members[place]? = some (.field field types)) :
    types ∈ typed.types.fields := by
  have listed := List.mem_of_getElem? stands
  simp only [members, List.mem_append, List.mem_map, Prod.exists, TypedMember.field.injEq,
    reduceCtorEq, and_false, exists_false, or_false] at listed
  obtain ⟨_, _, paired, rfl, rfl⟩ := listed
  exact (List.of_mem_zip paired).2

/-- A declared method is listed with its types. -/
theorem method_of_getElem? {typed : TypedRecord} {place : Nat} {method : MethodRecord}
    {types : MethodTypes} (stands : typed.members[place]? = some (.method method types)) :
    (method, types) ∈ typed.methods := by
  have listed := List.mem_of_getElem? stands
  simp only [members, List.mem_append, List.mem_map, Prod.exists, TypedMember.method.injEq,
    reduceCtorEq, and_false, exists_false, false_or] at listed
  obtain ⟨_, _, paired, rfl, rfl⟩ := listed
  exact paired

/-- A declaration refers to types that it mentions. -/
theorem mentioned_of_member {typed : TypedRecord} {place : Nat} {member : TypedMember}
    (stands : typed.members[place]? = some member) {type : TypeName} {kind : DependencyKind}
    {line : Option Nat} (refers : member.Refers type kind line) :
    type ∈ typed.types.mentions := by
  have ofField {field : FieldRecord} {types : FieldTypes} (isField : member = .field field types)
      (mentioned : type ∈ types.mentions) : type ∈ typed.types.mentions :=
    RecordTypes.mem_mentions_of_field (field_of_getElem? (isField ▸ stands)) mentioned
  have ofMethod {method : MethodRecord} {types : MethodTypes}
      (isMethod : member = .method method types) (mentioned : type ∈ types.mentions) :
      type ∈ typed.types.mentions :=
    RecordTypes.mem_mentions_of_method
      (List.of_mem_zip (method_of_getElem? (isMethod ▸ stands))).2 mentioned
  cases refers with
  | fieldMarked mentioned =>
    exact ofField rfl (by simp [FieldTypes.mentions, mentioned])
  | fieldType => exact ofField rfl (by simp [FieldTypes.mentions])
  | methodMarked mentioned =>
    exact ofMethod rfl (by simp [MethodTypes.mentions, mentioned])
  | parameterType listed =>
    exact ofMethod rfl (by simp [MethodTypes.mentions, listed])
  | returnType => exact ofMethod rfl (by simp [MethodTypes.mentions])
  | throws listed =>
    exact ofMethod rfl (by simp [MethodTypes.mentions, listed])
  | access made =>
    exact ofMethod rfl (by simp [MethodTypes.mentions, (List.of_mem_zip made).2])

/-- A record refers to types that it mentions. -/
theorem Refers.mentioned {typed : TypedRecord} {type : TypeName} {kind : DependencyKind}
    {line : Option Nat} (refers : typed.Refers type kind line) : type ∈ typed.types.mentions := by
  cases refers with
  | superclass above => simp [RecordTypes.mentions, above]
  | interface above => simp [RecordTypes.mentions, above]
  | annotated mentioned => simp [RecordTypes.mentions, mentioned]
  | member kept refers => exact mentioned_of_member kept.1 refers
  | typeReference declared made =>
    refine RecordTypes.mem_mentions_of_method (List.of_mem_zip declared).2 ?_
    simp [MethodTypes.mentions, (List.of_mem_zip made).2]

end TypedRecord

namespace Link

variable {records : List TypedRecord} {missing : List String}

/-- What edges come from and lead to is read off the bodies. -/
theorem edges_view {table : ClassTable} {classes : Array ClassNode} {members : Array Member}
    {all : List Body} :
    (edges table classes members all).map
        (fun access => (access.origin, access.owner, access.kind, access.line)) =
      all.flatMap fun body => (body.accesses table).map
        fun (access, owner) => (body.origin, owner, access.kind, access.line) := by
  have places (pending : List (MemberId × AccessRecord × ClassId)) :
      pending.zipIdx.map (fun row => (row.1.1, row.1.2.2, row.1.2.1.kind, row.1.2.1.line)) =
        pending.map fun row => (row.1, row.2.2, row.2.1.kind, row.2.1.line) := by
    conv_rhs => rw [← List.zipIdx_map_fst 0 pending, List.map_map]
    rfl
  rw [edges, List.map_map]
  refine (places _).trans ?_
  rw [List.map_flatMap]
  exact List.flatMap_congr fun body _ => List.map_map

/-- The members of a record stand at the numbers from its first number on. -/
theorem mem_ofTyped_members_iff {table : ClassTable} {start : MemberId} {typed : TypedRecord}
    {member : Member} :
    member ∈ (Declarations.ofTyped table start typed).members ↔
      ∃ place declared, typed.members[place]? = some declared ∧
        member = typed.member table (start + place) declared := by
  simp only [ofTyped_members, List.mem_map, Prod.exists, List.mem_zipIdx_iff_le_and_getElem?_sub]
  constructor
  · rintro ⟨declared, id, ⟨below, stands⟩, rfl⟩
    exact ⟨id - start, declared, stands, by rw [Nat.add_sub_cancel' below]⟩
  · rintro ⟨place, declared, stands, rfl⟩
    exact ⟨declared, start + place, ⟨Nat.le_add_right _ _, by rwa [Nat.add_sub_cancel_left]⟩, rfl⟩

/-- A member has the kind that its declaration has. -/
theorem kind_member {table : ClassTable} {id : MemberId} {typed : TypedRecord}
    (declared : TypedMember) :
    (typed.member table id declared).kind = declared.untyped.kind := by
  cases declared <;> rfl

/-- A member has the number it is given. -/
theorem id_member {table : ClassTable} {id : MemberId} {typed : TypedRecord}
    (declared : TypedMember) : (typed.member table id declared).id = id := by
  cases declared <;> rfl

/-- The bodies of all rows are those of each row. -/
theorem mem_allBodies_iff {body : Body} :
    body ∈ allBodies records missing ↔ ∃ typed declarations,
      (typed, declarations) ∈ rows records missing ∧ body ∈ bodies typed declarations := by
  simp [allBodies, List.mem_flatMap]

/-- A record has a body for each of its methods. -/
theorem exists_mem_bodies_iff {table : ClassTable} {start : MemberId} {typed : TypedRecord}
    {holds : MethodRecord → MethodTypes → Prop} :
    (∃ body ∈ bodies typed (.ofTyped table start typed), holds body.method body.types) ↔
      ∃ method types, (method, types) ∈ typed.methods ∧ holds method types := by
  have methods : (bodies typed (.ofTyped table start typed)).map
      (fun body => (body.method, body.types)) = typed.methods := by
    rw [bodies, List.map_map]
    exact List.map_fst_zip (by simp [Declarations.ofTyped])
  rw [← methods]
  simp only [List.mem_map, Prod.mk.injEq]
  constructor
  · rintro ⟨body, inRow, given⟩
    exact ⟨_, _, ⟨body, inRow, rfl, rfl⟩, given⟩
  · rintro ⟨_, _, ⟨body, inRow, rfl, rfl⟩, given⟩
    exact ⟨body, inRow, given⟩

/-- The accesses that a member lists are those that come from it. -/
theorem mem_accesses_iff {place : MemberId} {member : Member}
    (atPlace : (graph records missing).members[place]? = some member) {access : AccessEdge} :
    (∃ listed ∈ member.accesses, (graph records missing).accesses[listed]? = some access) ↔
      access ∈ (graph records missing).accesses ∧ access.origin = place := by
  rw [graph_outgoing place member atPlace]
  simp only [List.mem_map, List.mem_filter, Array.mem_toList_iff, decide_eq_true_eq]
  constructor
  · rintro ⟨_, ⟨other, ⟨inGraph, origin⟩, rfl⟩, found⟩
    rw [getElem?_graph_accesses_of_mem inGraph, Option.some.injEq] at found
    exact found ▸ ⟨inGraph, origin⟩
  · rintro ⟨inGraph, origin⟩
    exact ⟨access.id, ⟨access, ⟨inGraph, origin⟩, rfl⟩, getElem?_graph_accesses_of_mem inGraph⟩

/-- The member of a declaration, which has got its accesses. -/
theorem exists_member_of_row {typed : TypedRecord} {start : MemberId}
    (row : (typed, .ofTyped (number records missing) start typed) ∈ rows records missing)
    {place : Nat} {declared : TypedMember} (stands : typed.members[place]? = some declared) :
    ∃ outgoing, (graph records missing).members[start + place]? =
      some { typed.member (number records missing) (start + place) declared with
        accesses := outgoing } := by
  obtain ⟨outgoing, same⟩ := @graph_members_map records missing
  have inTyped := (@mem_ofTyped_members_iff (number records missing) start typed _).mpr
    ⟨place, declared, stands, rfl⟩
  have atTyped := getElem?_allMembers_of_row row inTyped
  rw [id_member] at atTyped
  rw [same, Array.getElem?_map, atTyped, Option.map_some]
  exact ⟨_, rfl⟩

section Row

variable (distinct : Distinct records missing) {typed : TypedRecord} {start : MemberId}
  (row : (typed, .ofTyped (number records missing) start typed) ∈ rows records missing)

include distinct row

/-- The bodies under the number of a declaration: its own, if it is a method. -/
theorem exists_body_iff {place : Nat} {declared : TypedMember}
    (stands : typed.members[place]? = some declared) {holds : MethodRecord → MethodTypes → Prop} :
    (∃ body ∈ allBodies records missing, body.origin = start + place ∧
        holds body.method body.types) ↔
      ∃ method types, declared = .method method types ∧ holds method types := by
  constructor
  · rintro ⟨body, inAll, origin, given⟩
    obtain ⟨other, others, otherRow, inRow⟩ := mem_allBodies_iff.mp inAll
    -- Members under one number have one owner, and no other record declares that.
    have sameRow : (other, others) = (typed, .ofTyped (number records missing) start typed) := by
      obtain ⟨⟨_, member⟩, paired, same⟩ := List.mem_map.mp inRow
      have inOther : member ∈ others.members :=
        List.mem_append_right _ (List.of_mem_zip paired).2
      have inTyped := (@mem_ofTyped_members_iff (number records missing) start typed _).mpr
        ⟨place, declared, stands, rfl⟩
      obtain rfl := eq_of_id_eq otherRow row inOther inTyped (by rw [id_member, ← origin, ← same])
      apply distinct.eq_of_owner_eq otherRow row
      rw [← owner_of_mem_row otherRow inOther, ← owner_of_mem_row row inTyped]
    cases sameRow
    rw [bodies_ofTyped] at inRow
    obtain ⟨⟨member, id⟩, listed, isBody⟩ := List.mem_filterMap.mp inRow
    rw [List.mem_zipIdx_iff_le_and_getElem?_sub] at listed
    cases member with
    | field field types => simp [body?] at isBody
    | method method types =>
      cases isBody
      obtain rfl : id = start + place := origin
      simp only [Nat.add_sub_cancel_left, stands] at listed
      exact ⟨method, types, Option.some.inj listed.2, given⟩
  · rintro ⟨method, types, rfl, given⟩
    refine ⟨{ origin := start + place, method, types }, mem_allBodies_iff.mpr ⟨typed, _, row, ?_⟩,
      rfl, given⟩
    rw [bodies_ofTyped]
    refine List.mem_filterMap.mpr ⟨(.method method types, start + place), ?_, rfl⟩
    rw [List.mem_zipIdx_iff_le_and_getElem?_sub]
    exact ⟨Nat.le_add_right _ _, by rwa [Nat.add_sub_cancel_left]⟩

/-- The edges from a declaration are those of the accesses in its body. -/
theorem exists_access_iff {place : Nat} {declared : TypedMember}
    (stands : typed.members[place]? = some declared) {owner : ClassId} {kind : AccessKind}
    {line : Nat} :
    (∃ access ∈ (graph records missing).accesses, access.origin = start + place ∧
        access.owner = owner ∧ access.kind = kind ∧ access.line = line) ↔
      ∃ method types, declared = .method method types ∧ ∃ made type,
        (made, type) ∈ method.accesses.zip types.accessOwners ∧
          (number records missing).id? type = some owner ∧ made.kind = kind ∧ made.line = line := by
  have viewed : (∃ access ∈ (graph records missing).accesses, access.origin = start + place ∧
      access.owner = owner ∧ access.kind = kind ∧ access.line = line) ↔
        (start + place, owner, kind, line) ∈ (graph records missing).accesses.toList.map
          fun access => (access.origin, access.owner, access.kind, access.line) := by
    simp
  rw [viewed, graph_accesses, edges_view, List.mem_flatMap, ← exists_body_iff distinct row stands]
  refine exists_congr fun body => and_congr_right fun _ => ?_
  simp only [List.mem_map, Body.accesses, List.mem_filterMap, Option.map_eq_some_iff, Prod.exists,
    Prod.mk.injEq]
  constructor
  · rintro ⟨_, _, ⟨made, type, listed, _, found, rfl, rfl⟩, origin, rfl, rfl, rfl⟩
    exact ⟨origin, made, type, listed, found, rfl, rfl⟩
  · rintro ⟨origin, made, type, listed, found, rfl, rfl⟩
    exact ⟨made, owner, ⟨made, type, listed, owner, found, rfl, rfl⟩, origin, rfl, rfl, rfl⟩

/-- A member refers to the numbers of the types that its declaration refers to. -/
theorem refers_member_iff (readable : typed.types.Readable) {place : Nat} {declared : TypedMember}
    (stands : typed.members[place]? = some declared) {member : Member}
    (atPlace : (graph records missing).members[start + place]? = some member) {id : ClassId}
    {kind : DependencyKind} {line : Option Nat} :
    member.Refers (graph records missing).accesses id kind line ↔
      ∃ type, declared.Refers type kind line ∧ (number records missing).id? type = some id := by
  have present := (mem_rows row).1
  have listed := @mem_accesses_iff records missing _ _ atPlace
  have made := @exists_access_iff records missing distinct typed start row place declared stands
  obtain ⟨outgoing, shape⟩ := exists_member_of_row row stands
  obtain rfl := Option.some.inj (atPlace.symm.trans shape)
  cases declared with
  | field field types =>
    have isField := TypedRecord.field_of_getElem? stands
    refine Member.refers_ofField_iff (readable.fields types isField)
      (number_knows_field records missing present isField) fun access found => ?_
    obtain ⟨inGraph, origin⟩ := listed.mp found
    obtain ⟨_, _, ⟨⟩, _⟩ := made.mp ⟨access, inGraph, origin, rfl, rfl, rfl⟩
  | method method types =>
    have isMethod := (List.of_mem_zip (TypedRecord.method_of_getElem? stands)).2
    refine Member.refers_ofMethod_iff (readable.methods types isMethod)
      (number_knows_method records missing present isMethod) fun owner kind line => ?_
    constructor
    · rintro ⟨access, found, isNamed⟩
      obtain ⟨inGraph, origin⟩ := listed.mp found
      obtain ⟨_, _, same, used⟩ := made.mp ⟨access, inGraph, origin, isNamed⟩
      cases same
      exact used
    · intro used
      obtain ⟨access, inGraph, origin, isNamed⟩ := made.mpr ⟨method, types, rfl, used⟩
      exact ⟨access, listed.mpr ⟨inGraph, origin⟩, isNamed⟩

/-- The class of a record lists the numbers of the declarations that it keeps. -/
theorem mem_members_iff_keeps {node : ClassNode}
    (stands : (graph records missing).classes[(number records missing).id typed.types.this]? =
      some node) {id : MemberId} :
    id ∈ node.members ↔ ∃ place declared, typed.Keeps place declared ∧ id = start + place := by
  rw [graph_members_of_row distinct row stands, Declarations.mem_listing_iff]
  constructor
  · rintro ⟨_, inRow, rfl, greatest⟩
    obtain ⟨place, declared, isDeclared, rfl⟩ := mem_ofTyped_members_iff.mp inRow
    rw [kind_member, id_member] at greatest
    refine ⟨place, declared, ⟨isDeclared, fun isKind later other atLater otherKind => ?_⟩,
      id_member declared⟩
    have below := greatest isKind _ (mem_ofTyped_members_iff.mpr ⟨later, other, atLater, rfl⟩)
      ((kind_member other).trans otherKind)
    rw [id_member] at below
    exact Nat.add_le_add_iff_left.mp below
  · rintro ⟨place, declared, ⟨isDeclared, greatest⟩, rfl⟩
    refine ⟨_, mem_ofTyped_members_iff.mpr ⟨place, declared, isDeclared, rfl⟩, id_member declared,
      fun isKind later inRow laterKind => ?_⟩
    obtain ⟨after, other, atLater, rfl⟩ := mem_ofTyped_members_iff.mp inRow
    rw [kind_member] at isKind laterKind
    rw [id_member]
    exact Nat.add_le_add_left (greatest isKind after other atLater laterKind) start

/-- The class of a record refers to types where the bodies of the record mention them. -/
theorem exists_typeReference_iff {node : ClassNode}
    (stands : (graph records missing).classes[(number records missing).id typed.types.this]? =
      some node) {id : ClassId} {line : Nat} :
    (∃ reference ∈ node.typeReferences, reference.target = id ∧ reference.line = line) ↔
      ∃ method types, (method, types) ∈ typed.methods ∧ ∃ mention type,
        (mention, type) ∈ method.typeMentions.zip types.typeMentions ∧
          (number records missing).id? type = some id ∧ mention.line = line := by
  rw [graph_typeReferences_of_row distinct row stands,
    ← @exists_mem_bodies_iff (number records missing) start]
  simp only [List.mem_flatMap, Body.typeReferences, List.mem_filterMap, Option.map_eq_some_iff,
    Prod.exists]
  constructor
  · rintro ⟨_, ⟨body, inRow, mention, type, mentioned, _, found, rfl⟩, rfl, rfl⟩
    exact ⟨body, inRow, mention, type, mentioned, found, rfl⟩
  · rintro ⟨body, inRow, mention, type, mentioned, found, rfl⟩
    exact ⟨_, ⟨body, inRow, mention, type, mentioned, id, found, rfl⟩, rfl, rfl⟩

/-- The class of a record refers to the numbers of the types that the record refers to. -/
theorem refers_class_iff (readable : typed.types.Readable) {node : ClassNode}
    (stands : (graph records missing).classes[(number records missing).id typed.types.this]? =
      some node) {id : ClassId} {kind : DependencyKind} {line : Option Nat} :
    node.Refers (graph records missing).members (graph records missing).accesses id kind line ↔
      ∃ type, typed.Refers type kind line ∧ (number records missing).id? type = some id := by
  have known := number_knows records missing (mem_rows row).1
  obtain ⟨stub, same⟩ := graph_view_of_row distinct row stands
    (fun node => (node.superclass, node.interfaces, node.annotations)) (fun _ => rfl) fun _ _ => rfl
  simp only [ClassNode.declare, Prod.mk.injEq] at same
  obtain ⟨isSuperclass, isInterfaces, isAnnotations⟩ := same
  have marked := @ClassTable.names_annotations_iff (number records missing) id _
    readable.annotations fun type mentioned =>
      known type (by simp [RecordTypes.mentions, mentioned])
  have references := @exists_typeReference_iff records missing distinct typed start row node stands
  constructor
  · intro refers
    cases refers with
    | superclass above =>
      rw [isSuperclass, Option.bind_eq_some_iff] at above
      obtain ⟨type, isAbove, found⟩ := above
      exact ⟨type, .superclass isAbove, found⟩
    | interface above =>
      rw [isInterfaces, ClassTable.mem_ids_iff] at above
      obtain ⟨type, isAbove, found⟩ := above
      exact ⟨type, .interface isAbove, found⟩
    | annotated carried names =>
      obtain ⟨type, mentioned, found⟩ := marked.mp ⟨_, isAnnotations ▸ carried, names⟩
      exact ⟨type, .annotated mentioned, found⟩
    | member listed atPlace refers =>
      obtain ⟨place, declared, kept, rfl⟩ := (mem_members_iff_keeps distinct row stands).mp listed
      obtain ⟨type, isReferred, found⟩ :=
        (refers_member_iff distinct row readable kept.1 atPlace).mp refers
      exact ⟨type, .member kept isReferred, found⟩
    | typeReference made =>
      obtain ⟨method, types, declared, mention, type, mentioned, found, sameLine⟩ :=
        references.mp ⟨_, made, rfl, rfl⟩
      exact ⟨type, sameLine ▸ .typeReference declared mentioned, found⟩
  · rintro ⟨type, refers, found⟩
    cases refers with
    | superclass above =>
      refine .superclass ?_
      rw [isSuperclass, above, Option.bind_some, found]
    | interface above =>
      refine .interface ?_
      rw [isInterfaces, ClassTable.mem_ids_iff]
      exact ⟨type, above, found⟩
    | annotated mentioned =>
      obtain ⟨mark, carried, names⟩ := marked.mpr ⟨type, mentioned, found⟩
      exact .annotated (isAnnotations ▸ carried) names
    | member kept refers =>
      obtain ⟨outgoing, atPlace⟩ := exists_member_of_row row kept.1
      exact .member ((mem_members_iff_keeps distinct row stands).mpr ⟨_, _, kept, rfl⟩) atPlace
        ((refers_member_iff distinct row readable kept.1 atPlace).mpr ⟨type, refers, found⟩)
    | typeReference declared mentioned =>
      obtain ⟨reference, made, rfl, sameLine⟩ :=
        references.mpr ⟨_, _, declared, _, type, mentioned, found, rfl⟩
      exact sameLine ▸ .typeReference made

end Row

end Link

end ClassAtlas
