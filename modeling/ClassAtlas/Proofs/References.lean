import ClassAtlas.Graph.ClassGraph

/-!
# What a class refers to

A class refers to other classes from its head, from the annotations and signatures of its
members, and from their bodies. Here each way of referring is a rule of its own, and the list
of references that a class makes is shown to hold exactly what the rules give. Annotations
are entered to any depth.

A reference counts for the innermost element of the class it names. Following the components
of arrays ends, since in the graphs considered here a component is numbered before its array.
-/

namespace ClassAtlas

section Annotations

variable {τ κ : Type}

mutual

/-- A type stands somewhere in an annotation: on the left a type that is named, on the right
one of a class literal. -/
inductive AnnotationUse.Mentions : AnnotationUse τ κ → τ ⊕ κ → Prop
  | type (type : τ) (elements : List (Element τ κ)) :
      AnnotationUse.Mentions (.mk type elements) (.inl type)
  | element (type : τ) {elements : List (Element τ κ)} {name : String} {value : ElementValue τ κ}
      {part : τ ⊕ κ} (listed : .mk name value ∈ elements)
      (inside : ElementValue.Mentions value part) :
      AnnotationUse.Mentions (.mk type elements) part

/-- A type stands somewhere in a value. -/
inductive ElementValue.Mentions : ElementValue τ κ → τ ⊕ κ → Prop
  | enumConstant (type : τ) (constant : String) :
      ElementValue.Mentions (.enumConstant type constant) (.inl type)
  | classLiteral (type : κ) : ElementValue.Mentions (.classLiteral type) (.inr type)
  | nested {value : AnnotationUse τ κ} {part : τ ⊕ κ}
      (inside : AnnotationUse.Mentions value part) : ElementValue.Mentions (.nested value) part
  | array {values : List (ElementValue τ κ)} {value : ElementValue τ κ} {part : τ ⊕ κ}
      (listed : value ∈ values) (inside : ElementValue.Mentions value part) :
      ElementValue.Mentions (.array values) part

end

variable {α : Type} {named : τ → List α} {literal : κ → List α} {item : α}

mutual

/-- What is collected from an annotation comes from the types that stand in it. -/
theorem AnnotationUse.mem_collect_iff : ∀ mark : AnnotationUse τ κ,
    item ∈ mark.collect named literal ↔
      ∃ part, mark.Mentions part ∧ item ∈ part.elim named literal
  | .mk type elements => by
    rw [AnnotationUse.collect, List.mem_append, mem_elementsCollect_iff elements]
    constructor
    · rintro (own | ⟨name, value, listed, part, inside, given⟩)
      · exact ⟨.inl type, .type type elements, own⟩
      · exact ⟨part, .element type listed inside, given⟩
    · rintro ⟨part, mentions, given⟩
      cases mentions with
      | type => exact Or.inl given
      | element _ listed inside => exact Or.inr ⟨_, _, listed, part, inside, given⟩

/-- What is collected from elements comes from what one of their values mentions. -/
theorem mem_elementsCollect_iff : ∀ elements : List (Element τ κ),
    item ∈ elementsCollect named literal elements ↔
      ∃ name value, .mk name value ∈ elements ∧
        ∃ part, ElementValue.Mentions value part ∧ item ∈ part.elim named literal
  | [] => by simp [elementsCollect]
  | .mk name value :: rest => by
    rw [elementsCollect, List.mem_append, ElementValue.mem_collect_iff value,
      mem_elementsCollect_iff rest]
    constructor
    · rintro (first | ⟨name, value, listed, later⟩)
      · exact ⟨name, value, List.mem_cons_self, first⟩
      · exact ⟨name, value, List.mem_cons_of_mem _ listed, later⟩
    · rintro ⟨name, value, listed, found⟩
      rcases List.mem_cons.mp listed with same | later
      · cases same
        exact Or.inl found
      · exact Or.inr ⟨name, value, later, found⟩

/-- What is collected from a value comes from what it mentions. -/
theorem ElementValue.mem_collect_iff : ∀ value : ElementValue τ κ,
    item ∈ value.collect named literal ↔
      ∃ part, value.Mentions part ∧ item ∈ part.elim named literal
  | .literal value => by
    rw [ElementValue.collect]
    constructor
    · intro impossible
      simp at impossible
    · rintro ⟨part, mentions, _⟩
      cases mentions
  | .enumConstant type constant => by
    rw [ElementValue.collect]
    constructor
    · exact fun given => ⟨.inl type, .enumConstant type constant, given⟩
    · rintro ⟨part, mentions, given⟩
      cases mentions
      exact given
  | .classLiteral type => by
    rw [ElementValue.collect]
    constructor
    · exact fun given => ⟨.inr type, .classLiteral type, given⟩
    · rintro ⟨part, mentions, given⟩
      cases mentions
      exact given
  | .nested value => by
    rw [ElementValue.collect, AnnotationUse.mem_collect_iff value]
    constructor
    · rintro ⟨part, inside, given⟩
      exact ⟨part, .nested inside, given⟩
    · rintro ⟨part, mentions, given⟩
      cases mentions with
      | nested inside => exact ⟨part, inside, given⟩
  | .array values => by
    rw [ElementValue.collect, mem_valuesCollect_iff values]
    constructor
    · rintro ⟨value, listed, part, inside, given⟩
      exact ⟨part, .array listed inside, given⟩
    · rintro ⟨part, mentions, given⟩
      cases mentions with
      | array listed inside => exact ⟨_, listed, part, inside, given⟩

/-- What is collected from values comes from what one of them mentions. -/
theorem mem_valuesCollect_iff : ∀ values : List (ElementValue τ κ),
    item ∈ valuesCollect named literal values ↔
      ∃ value ∈ values, ∃ part, value.Mentions part ∧ item ∈ part.elim named literal
  | [] => by simp [valuesCollect]
  | value :: rest => by
    rw [valuesCollect, List.mem_append, ElementValue.mem_collect_iff value,
      mem_valuesCollect_iff rest]
    simp only [List.mem_cons, exists_eq_or_imp]

end

end Annotations

/-- An annotation of a graph names a class: by its own type, an enum constant or a class
literal, at any depth. -/
def AnnotationUse.Names (mark : AnnotationUse ClassId TypeRef) (id : ClassId) : Prop :=
  mark.Mentions (.inl id) ∨ mark.Mentions (.inr (.node id))

/-- How a member refers to a class: by its annotations, its signature and its body. -/
inductive Member.Refers (accesses : Array AccessEdge) (member : Member) :
    ClassId → DependencyKind → Option Nat → Prop
  | annotated {mark : AnnotationUse ClassId TypeRef} {id : ClassId}
      (carried : mark ∈ member.annotations) (names : mark.Names id) :
      Refers accesses member id .annotationType none
  | fieldType {id : ClassId} (isField : member.kind = .field)
      (type : member.valueType = .node id) : Refers accesses member id .fieldType none
  | parameterType {id : ClassId} (isCode : member.kind ≠ .field)
      (listed : .node id ∈ member.parameters) : Refers accesses member id .parameterType none
  | returnType {id : ClassId} (isCode : member.kind ≠ .field)
      (type : member.valueType = .node id) : Refers accesses member id .returnType none
  | throws {id : ClassId} (isCode : member.kind ≠ .field) (listed : id ∈ member.throws) :
      Refers accesses member id .throws none
  | access {number : AccessId} {access : AccessEdge} (made : number ∈ member.accesses)
      (stands : accesses[number]? = some access) :
      Refers accesses member access.owner (.access access.kind) (some access.line)

/-- How a class refers to a class, or to an array of it: by its supertypes, its annotations,
its members, and by the types that bodies name. The line is known for bodies only. -/
inductive ClassNode.Refers (members : Array Member) (accesses : Array AccessEdge)
    (node : ClassNode) : ClassId → DependencyKind → Option Nat → Prop
  | superclass {id : ClassId} (above : node.superclass = some id) :
      Refers members accesses node id .superclass none
  | interface {id : ClassId} (above : id ∈ node.interfaces) :
      Refers members accesses node id .interface none
  | annotated {mark : AnnotationUse ClassId TypeRef} {id : ClassId}
      (carried : mark ∈ node.annotations) (names : mark.Names id) :
      Refers members accesses node id .annotationType none
  | member {number : MemberId} {member : Member} {id : ClassId} {kind : DependencyKind}
      {line : Option Nat} (declared : number ∈ node.members)
      (stands : members[number]? = some member) (refers : member.Refers accesses id kind line) :
      Refers members accesses node id kind line
  | typeReference {reference : TypeReference} (made : reference ∈ node.typeReferences) :
      Refers members accesses node reference.target .typeReference (some reference.line)

/-- A reference has a class if it is a node. -/
theorem TypeRef.node?_eq_some_iff {type : TypeRef} {id : ClassId} :
    type.node? = some id ↔ type = .node id := by
  cases type <;> simp [node?]

namespace Reference

variable {members : Array Member} {accesses : Array AccessEdge} {reference : Reference}

/-- References without lines to given classes. -/
theorem mem_map_plain {kind : DependencyKind} {ids : List ClassId} :
    reference ∈ ids.map (plain kind) ↔
      reference.target ∈ ids ∧ reference.kind = kind ∧ reference.line = none := by
  obtain ⟨target, found, line⟩ := reference
  simp only [List.mem_map, plain, mk.injEq]
  constructor
  · rintro ⟨id, listed, rfl, rfl, rfl⟩
    exact ⟨listed, rfl, rfl⟩
  · rintro ⟨listed, rfl, rfl⟩
    exact ⟨target, listed, rfl, rfl, rfl⟩

/-- The references of annotations are to the classes that these name. -/
theorem mem_ofAnnotations_iff {annotations : NodeAnnotations} :
    reference ∈ ofAnnotations annotations ↔
      (∃ mark ∈ annotations, mark.Names reference.target) ∧
        reference.kind = .annotationType ∧ reference.line = none := by
  have ofPart (part : ClassId ⊕ TypeRef) : reference ∈ part.elim
      (fun id => [plain .annotationType id])
      (fun type => type.node?.toList.map (plain .annotationType)) ↔
        (part = .inl reference.target ∨ part = .inr (.node reference.target)) ∧
          reference.kind = .annotationType ∧ reference.line = none := by
    cases part with
    | inl id => simpa [eq_comm] using @mem_map_plain reference .annotationType [id]
    | inr type =>
      simp only [Sum.elim_inr, mem_map_plain, Option.mem_toList, TypeRef.node?_eq_some_iff]
      simp
  simp only [ofAnnotations, List.mem_flatMap, AnnotationUse.mem_collect_iff, ofPart]
  constructor
  · rintro ⟨mark, carried, part, mentions, rfl | rfl, found⟩
    · exact ⟨⟨mark, carried, Or.inl mentions⟩, found⟩
    · exact ⟨⟨mark, carried, Or.inr mentions⟩, found⟩
  · rintro ⟨⟨mark, carried, mentions | mentions⟩, found⟩
    · exact ⟨mark, carried, _, mentions, Or.inl rfl, found⟩
    · exact ⟨mark, carried, _, mentions, Or.inr rfl, found⟩

/-- The classes among parameter types are the nodes among them. -/
theorem mem_parameters_iff {parameters : List TypeRef} {id : ClassId} :
    id ∈ parameters.filterMap TypeRef.node? ↔ .node id ∈ parameters := by
  simp only [List.mem_filterMap, TypeRef.node?_eq_some_iff, exists_eq_right]

/-- A field refers to its type, all else to parameters, result and exceptions. -/
theorem mem_ofSignature_iff {member : Member} : reference ∈ ofSignature member ↔
    reference.line = none ∧
      (member.kind = .field ∧ reference.kind = .fieldType ∧
          member.valueType = .node reference.target ∨
        member.kind ≠ .field ∧
          (reference.kind = .parameterType ∧ .node reference.target ∈ member.parameters ∨
            reference.kind = .returnType ∧ member.valueType = .node reference.target ∨
            reference.kind = .throws ∧ reference.target ∈ member.throws)) := by
  by_cases isField : member.kind = .field
  · simp only [ofSignature, isField, mem_map_plain, Option.mem_toList, TypeRef.node?_eq_some_iff,
      ne_eq, not_true_eq_false, false_and, or_false, true_and]
    grind
  · have ofCode : ofSignature member =
        (member.parameters.filterMap TypeRef.node?).map (plain .parameterType) ++
          member.valueType.node?.toList.map (plain .returnType) ++
          member.throws.map (plain .throws) := by
      cases kind : member.kind with
      | field => exact absurd kind isField
      | method => simp only [ofSignature, kind]
      | constructor => simp only [ofSignature, kind]
      | staticInitializer => simp only [ofSignature, kind]
    simp only [ofCode, isField, List.mem_append, mem_map_plain, mem_parameters_iff,
      Option.mem_toList, TypeRef.node?_eq_some_iff, false_and, false_or, ne_eq, not_false_eq_true,
      true_and]
    grind

/-- The references of a member are those that its rules give. -/
theorem mem_ofMember_iff {member : Member} : reference ∈ ofMember accesses member ↔
    member.Refers accesses reference.target reference.kind reference.line := by
  obtain ⟨target, kind, line⟩ := reference
  simp only [ofMember, List.mem_append, mem_ofAnnotations_iff, mem_ofSignature_iff]
  constructor
  · rintro ((⟨⟨mark, carried, names⟩, rfl, rfl⟩ | ⟨rfl, inSignature⟩) | inBody)
    · exact .annotated carried names
    · rcases inSignature with ⟨isField, rfl, type⟩ | ⟨isCode, ⟨rfl, listed⟩ | ⟨rfl, type⟩ |
        ⟨rfl, listed⟩⟩
      · exact .fieldType isField type
      · exact .parameterType isCode listed
      · exact .returnType isCode type
      · exact .throws isCode listed
    · obtain ⟨access, listed, same⟩ := List.mem_map.mp inBody
      obtain ⟨number, made, stands⟩ := List.mem_filterMap.mp listed
      cases same
      exact .access made stands
  · intro refers
    cases refers with
    | annotated carried names => exact Or.inl (Or.inl ⟨⟨_, carried, names⟩, rfl, rfl⟩)
    | fieldType isField type => exact Or.inl (Or.inr ⟨rfl, Or.inl ⟨isField, rfl, type⟩⟩)
    | parameterType isCode listed =>
      exact Or.inl (Or.inr ⟨rfl, Or.inr ⟨isCode, Or.inl ⟨rfl, listed⟩⟩⟩)
    | returnType isCode type =>
      exact Or.inl (Or.inr ⟨rfl, Or.inr ⟨isCode, Or.inr (Or.inl ⟨rfl, type⟩)⟩⟩)
    | throws isCode listed =>
      exact Or.inl (Or.inr ⟨rfl, Or.inr ⟨isCode, Or.inr (Or.inr ⟨rfl, listed⟩)⟩⟩)
    | access made stands =>
      exact Or.inr (List.mem_map.mpr ⟨_, List.mem_filterMap.mpr ⟨_, made, stands⟩, rfl⟩)

/-- The references of a class are those that its rules give. -/
theorem mem_ofClass_iff {node : ClassNode} : reference ∈ ofClass members accesses node ↔
    node.Refers members accesses reference.target reference.kind reference.line := by
  obtain ⟨target, kind, line⟩ := reference
  simp only [ofClass, List.mem_append, mem_map_plain, Option.mem_toList, mem_ofAnnotations_iff]
  constructor
  · rintro ((((⟨above, rfl, rfl⟩ | ⟨above, rfl, rfl⟩) | ⟨⟨mark, carried, names⟩, rfl, rfl⟩) |
      inMember) | inBody)
    · exact .superclass above
    · exact .interface above
    · exact .annotated carried names
    · obtain ⟨member, listed, made⟩ := List.mem_flatMap.mp inMember
      obtain ⟨number, declared, stands⟩ := List.mem_filterMap.mp listed
      exact .member declared stands (mem_ofMember_iff.mp made)
    · obtain ⟨named, made, same⟩ := List.mem_map.mp inBody
      cases same
      exact .typeReference made
  · intro refers
    cases refers with
    | superclass above => exact Or.inl (Or.inl (Or.inl (Or.inl ⟨above, rfl, rfl⟩)))
    | interface above => exact Or.inl (Or.inl (Or.inl (Or.inr ⟨above, rfl, rfl⟩)))
    | annotated carried names =>
      exact Or.inl (Or.inl (Or.inr ⟨⟨_, carried, names⟩, rfl, rfl⟩))
    | member declared stands refers =>
      exact Or.inl (Or.inr (List.mem_flatMap.mpr
        ⟨_, List.mem_filterMap.mpr ⟨_, declared, stands⟩, mem_ofMember_iff.mpr refers⟩))
    | typeReference made => exact Or.inr (List.mem_map.mpr ⟨_, made, rfl⟩)

end Reference

/-- The innermost element of a class: its own if it is no array, and else that of its
component. An array of a primitive type has no component and so no innermost element. -/
inductive IsInnermost (classes : Array ClassNode) : ClassId → ClassId → Prop
  | self {id : ClassId} {node : ClassNode} (stands : classes[id]? = some node)
      (plain : node.type.isArray = false) : IsInnermost classes id id
  | component {id part inner : ClassId} {node : ClassNode} (stands : classes[id]? = some node)
      (isArray : node.type.isArray = true) (below : node.component = some part)
      (further : IsInnermost classes part inner) : IsInnermost classes id inner

/-- Only arrays have components, and those stand before them. -/
def ComponentsBefore (classes : Array ClassNode) : Prop :=
  ∀ (id : ClassId) (node : ClassNode), classes[id]? = some node →
    ∀ part ∈ node.component, part < id ∧ node.type.isArray = true

section Innermost

variable {classes : Array ClassNode} {id inner : ClassId}

/-- The innermost element is no array. -/
theorem IsInnermost.plain (isInnermost : IsInnermost classes id inner) :
    ∃ node, classes[inner]? = some node ∧ node.type.isArray = false := by
  induction isInnermost with
  | self stands plain => exact ⟨_, stands, plain⟩
  | component _ _ _ _ inductionHypothesis => exact inductionHypothesis

/-- The innermost element is the class itself if it is no array, and else that of its component. -/
theorem isInnermost_iff {node : ClassNode} (stands : classes[id]? = some node) :
    IsInnermost classes id inner ↔
      node.type.isArray = false ∧ id = inner ∨
      node.type.isArray = true ∧ ∃ part ∈ node.component, IsInnermost classes part inner := by
  constructor
  · rintro (⟨present, plain⟩ | ⟨present, isArray, below, further⟩)
    · exact Or.inl ⟨Option.some.inj (stands.symm.trans present) ▸ plain, rfl⟩
    · cases Option.some.inj (stands.symm.trans present)
      exact Or.inr ⟨isArray, _, below, further⟩
  · rintro (⟨plain, rfl⟩ | ⟨isArray, part, below, further⟩)
    · exact .self stands plain
    · exact .component stands isArray below further

/-- Where components stand before their arrays, the search ends at the innermost element. -/
theorem innermost_eq_some_iff (before : ComponentsBefore classes) :
    innermost classes id = some inner ↔ IsInnermost classes id inner := by
  induction id using Nat.strongRecOn generalizing inner with
  | ind id inductionHypothesis =>
    rw [innermost]
    cases stands : classes[id]? with
    | none =>
      constructor
      · simp
      · rintro (⟨present, _⟩ | ⟨present, _⟩) <;> simp [stands] at present
    | some node =>
      rw [isInnermost_iff stands]
      cases below : node.component with
      | some part =>
        obtain ⟨less, isArray⟩ := before id node stands part below
        simp [below, less, isArray, inductionHypothesis part less]
      | none => cases isArray : node.type.isArray <;> simp [below, isArray]

end Innermost

end ClassAtlas
