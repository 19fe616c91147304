import ClassAtlas.Graph.Declaration

/-!
# Numbers and owners of declared members

Declaring records one after the other numbers their members without a gap from the first
number on, so that a member stands in the list of all members at its own number. Each
member belongs to the class of the record that declares it, and a node filled from a record
lists members of that record only.
-/

namespace ClassAtlas

/-- All members that records declare, in order of their numbers. -/
def declaredMembers (declared : List (TypedRecord × Declarations)) : List Member :=
  declared.flatMap fun (_, declarations) => declarations.members

namespace Declarations

variable (table : ClassTable) (first : MemberId) (typed : TypedRecord)

/-- The members of one record have consecutive numbers: the methods start where the fields
end. -/
theorem ofTyped_ids : (ofTyped table first typed).members.map Member.id =
    List.range' first (ofTyped table first typed).members.length := by
  have fieldIds : (ofTyped table first typed).fields.map Member.id =
      List.range' first typed.fields.length := by
    rw [← List.zipIdx_map_snd, ofTyped, List.map_map]
    rfl
  have methodIds : (ofTyped table first typed).methods.map Member.id =
      List.range' (first + typed.fields.length) typed.methods.length := by
    rw [← List.zipIdx_map_snd, ofTyped, List.map_map]
    rfl
  rw [members, List.map_append, fieldIds, methodIds, List.range'_append_1]
  simp [ofTyped]

/-- A declared member comes from a field or from a method of the record. -/
theorem mem_ofTyped {member : Member} (declared : member ∈ (ofTyped table first typed).members) :
    (∃ field types, (field, types) ∈ typed.fields ∧
      member = .ofField table (table.id typed.types.this) member.id field types) ∨
    ∃ method types, (method, types) ∈ typed.methods ∧
      member = .ofMethod table (table.id typed.types.this) member.id method types := by
  rcases List.mem_append.mp declared with isField | isMethod
  · obtain ⟨⟨⟨field, types⟩, id⟩, listed, rfl⟩ := List.mem_map.mp isField
    exact Or.inl ⟨field, types, List.fst_mem_of_mem_zipIdx listed, rfl⟩
  · obtain ⟨⟨⟨method, types⟩, id⟩, listed, rfl⟩ := List.mem_map.mp isMethod
    exact Or.inr ⟨method, types, List.fst_mem_of_mem_zipIdx listed, rfl⟩

/-- The members of a record belong to the class it declares. -/
theorem owner_of_mem_ofTyped {member : Member}
    (declared : member ∈ (ofTyped table first typed).members) :
    member.owner = table.id typed.types.this := by
  rcases mem_ofTyped table first typed declared with ⟨field, types, _, same⟩ |
    ⟨method, types, _, same⟩
  · rw [same]
    rfl
  · rw [same]
    rfl

end Declarations

/-- A filled node lists members of its own record only. -/
theorem ClassNode.mem_members_declare {table : ClassTable} {typed : TypedRecord}
    {declarations : Declarations} {node : ClassNode} {id : MemberId}
    (listed : id ∈ (node.declare table typed declarations).members) :
    ∃ member ∈ declarations.members, member.id = id := by
  have ofKind (kind : MemberKind) (found : id ∈ declarations.ofKind kind) :
      ∃ member ∈ declarations.members, member.id = id := by
    obtain ⟨member, selected, same⟩ := List.mem_map.mp found
    exact ⟨member, List.mem_append_right _ (List.mem_filter.mp selected).1, same⟩
  simp only [members, declare, List.mem_append, Option.mem_toList] at listed
  rcases listed with ((isField | isConstructor) | isMethod) | isInitializer
  · obtain ⟨member, declared, same⟩ := List.mem_map.mp isField
    exact ⟨member, List.mem_append_left _ declared, same⟩
  · exact ofKind .constructor isConstructor
  · exact ofKind .method isMethod
  · exact ofKind .staticInitializer (List.mem_of_getLast? isInitializer)

/-- Every row of declarations is that of one of the records, from some number on. -/
theorem mem_declareAll {table : ClassTable} {first : MemberId} {records : List TypedRecord}
    {typed : TypedRecord} {declarations : Declarations}
    (listed : (typed, declarations) ∈ declareAll table first records) :
    typed ∈ records ∧ ∃ start, declarations = .ofTyped table start typed := by
  induction records generalizing first with
  | nil => simp [declareAll] at listed
  | cons record rest inductionHypothesis =>
    rcases List.mem_cons.mp listed with same | later
    · obtain ⟨rfl, rfl⟩ := Prod.mk.inj same
      exact ⟨List.mem_cons_self, first, rfl⟩
    · obtain ⟨present, start, same⟩ := inductionHypothesis later
      exact ⟨List.mem_cons_of_mem record present, start, same⟩

/-- All members have consecutive numbers. -/
theorem declareAll_ids (table : ClassTable) (first : MemberId) (records : List TypedRecord) :
    (declaredMembers (declareAll table first records)).map Member.id =
      List.range' first (declaredMembers (declareAll table first records)).length := by
  induction records generalizing first with
  | nil => rfl
  | cons typed rest inductionHypothesis =>
    have split : declaredMembers (declareAll table first (typed :: rest)) =
        (Declarations.ofTyped table first typed).members ++
          declaredMembers (declareAll table
            (first + (Declarations.ofTyped table first typed).members.length) rest) := rfl
    rw [split, List.map_append, Declarations.ofTyped_ids, inductionHypothesis, List.length_append,
      List.range'_append_1]

/-- A member stands at its own number. -/
theorem id_of_getElem?_declareAll {table : ClassTable} {records : List TypedRecord} {id : MemberId}
    {member : Member}
    (stands : (declaredMembers (declareAll table 0 records))[id]? = some member) :
    member.id = id := by
  have ids := congrArg (·[id]?) (declareAll_ids table 0 records)
  have inside := (List.getElem?_eq_some_iff.mp stands).1
  simp only [List.getElem?_map, stands, Option.map_some, List.getElem?_range' inside] at ids
  simpa using ids

/-- Every declared member is found under its number. -/
theorem getElem?_declareAll_of_mem {table : ClassTable} {records : List TypedRecord}
    {member : Member} (declared : member ∈ declaredMembers (declareAll table 0 records)) :
    (declaredMembers (declareAll table 0 records))[member.id]? = some member := by
  obtain ⟨place, stands⟩ := List.mem_iff_getElem?.mp declared
  rw [id_of_getElem?_declareAll stands]
  exact stands

end ClassAtlas
