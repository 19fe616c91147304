import ClassAtlas.Proofs.Dependencies
import ClassAtlas.Proofs.ReadTypes

/-!
# Types behind names

A graph tells types apart by their names alone. That this is no loss rests on how types are read:
the name of a class holds no punctuation of descriptors, whatever notation it was read from, so it
is never the name of an array, and the name of an array spells its component. Hence the type that
stands at the number of a type is that very type, and the classes that a graph follows from an
array inwards are its component types.
-/

namespace ClassAtlas

namespace TypeName

/-- The spelling inside array names tells all types apart. -/
theorem elementLetters_injective : Function.Injective elementLetters := by
  intro left
  induction left with
  | primitive kind =>
    intro right same
    cases right with
    | primitive other =>
      rw [elementLetters, elementLetters, List.cons.injEq] at same
      rw [Primitive.letter_injective same.1]
    | object name => simp [elementLetters] at same
    | array component =>
      cases kind <;> simp [elementLetters, Primitive.letter] at same
  | object name =>
    intro right same
    cases right with
    | primitive kind => simp [elementLetters] at same
    | object other =>
      simp only [elementLetters, List.cons.injEq, List.append_cancel_right_eq, true_and] at same
      rw [String.toList_inj.mp same]
    | array component => simp [elementLetters] at same
  | array component inductionHypothesis =>
    intro right same
    cases right with
    | primitive kind => cases kind <;> simp [elementLetters, Primitive.letter] at same
    | object name => simp [elementLetters] at same
    | array other =>
      rw [elementLetters, elementLetters, List.cons.injEq] at same
      rw [inductionHypothesis same.2]

/-- Regular types are told apart by their names, primitive types aside. -/
theorem eq_of_name_eq {left right : TypeName} (leftRegular : left.Regular)
    (rightRegular : right.Regular) (leftReference : left.isPrimitive = false)
    (rightReference : right.isPrimitive = false) (same : left.name = right.name) :
    left = right := by
  have apart {name : String} (proper : Proper name) (component : TypeName) :
      (object name).name ≠ (array component).name := by
    have spelled : (object name).Spelled := proper.plain
    exact spelled.name_ne component
  cases left with
  | primitive kind => simp [isPrimitive] at leftReference
  | object name =>
    cases right with
    | primitive kind => simp [isPrimitive] at rightReference
    | object other => exact congrArg object same
    | array component => exact absurd same (apart leftRegular component)
  | array component =>
    cases right with
    | primitive kind => simp [isPrimitive] at rightReference
    | object name => exact absurd same.symm (apart rightRegular component)
    | array other =>
      have letters := congrArg String.toList same
      simp only [name, String.toList_ofList, List.cons.injEq, true_and] at letters
      rw [elementLetters_injective letters]

/-- Primitive types are not numbered. -/
theorem isPrimitive_of_numbered {type part : TypeName} (listed : part ∈ type.numbered) :
    part.isPrimitive = false := by
  induction type with
  | primitive kind => simp [numbered] at listed
  | object name =>
    rw [numbered, List.mem_singleton] at listed
    exact listed ▸ rfl
  | array component inductionHypothesis =>
    simp only [numbered, List.mem_append, List.mem_cons, List.not_mem_nil, or_false] at listed
    rcases listed with inside | rfl | rfl
    · exact inductionHypothesis inside
    · rfl
    · rfl

/-- All that is numbered with a type is regular if the type is. -/
theorem Regular.numbered {type part : TypeName} (regular : type.Regular)
    (listed : part ∈ type.numbered) : part.Regular := by
  induction type with
  | primitive kind => simp [TypeName.numbered] at listed
  | object name =>
    rw [TypeName.numbered, List.mem_singleton] at listed
    exact listed ▸ regular
  | array component inductionHypothesis =>
    simp only [TypeName.numbered, List.mem_append, List.mem_cons, List.not_mem_nil,
      or_false] at listed
    rcases listed with inside | rfl | rfl
    · exact inductionHypothesis regular.2 inside
    · have proper : Proper "java.lang.Object" := ⟨by simp, by simp [punctuation], by simp⟩
      exact proper
    · exact regular

end TypeName

/-- Interning brings nothing in but what is numbered with the types. -/
theorem ClassTable.internAll_all {holds : TypeName → Prop} {table : ClassTable}
    {types : List TypeName} (before : ∀ type ∈ table.types, holds type)
    (added : ∀ type ∈ types, ∀ part ∈ type.numbered, holds part) :
    ∀ type ∈ (table.internAll types).types, holds type := by
  have adding {parts : List TypeName} {table : ClassTable}
      (before : ∀ type ∈ table.types, holds type) (added : ∀ part ∈ parts, holds part) :
      ∀ type ∈ (parts.foldl add table).types, holds type := by
    induction parts generalizing table with
    | nil => exact before
    | cons part rest inductionHypothesis =>
      obtain ⟨here, later⟩ := List.forall_mem_cons.mp added
      refine inductionHypothesis ?_ later
      by_cases known : part.name ∈ table.index
      · rw [add_of_mem known]
        exact before
      · simpa [add_of_not_mem known, or_imp, forall_and] using ⟨before, here⟩
  induction types generalizing table with
  | nil => exact before
  | cons type rest inductionHypothesis =>
    obtain ⟨here, later⟩ := List.forall_mem_cons.mp added
    refine inductionHypothesis ?_ later
    rw [intern_eq_foldl]
    exact adding before here

/-- A table of regular types holds regular types only, none of them primitive. -/
theorem ClassTable.regular_of_internAll {types : List TypeName}
    (allRegular : ∀ type ∈ types, type.Regular) :
    ∀ stored ∈ (({} : ClassTable).internAll types).types,
      stored.Regular ∧ stored.isPrimitive = false := by
  refine internAll_all (by simp) fun given listed part inside => ?_
  exact ⟨(allRegular given listed).numbered inside, TypeName.isPrimitive_of_numbered inside⟩

/-- In such a table, that type stands at the number of a type. -/
theorem ClassTable.type_of_id?_internAll {types : List TypeName}
    (allRegular : ∀ type ∈ types, type.Regular) {type : TypeName} (regular : type.Regular)
    {id : ClassId} (found : (({} : ClassTable).internAll types).id? type = some id) :
    (({} : ClassTable).internAll types).types[id]? = some type := by
  obtain ⟨stored, atId, sameName⟩ := (internAll_sound sound_empty types).type_of_id? found
  obtain ⟨storedRegular, storedReference⟩ :=
    regular_of_internAll allRegular stored (Array.mem_of_getElem? atId)
  have reference : type.isPrimitive = false := by
    cases primitive : type.isPrimitive with
    | false => rfl
    | true => simp [id?, primitive] at found
  rw [atId, TypeName.eq_of_name_eq storedRegular regular storedReference reference sameName]

/-- Whatever is numbered with a type that was interned has a number, at which it stands. -/
theorem ClassTable.exists_id?_of_numbered {types : List TypeName}
    (allRegular : ∀ type ∈ types, type.Regular) {type part : TypeName} (listed : type ∈ types)
    (inside : part ∈ type.numbered) :
    ∃ id, (({} : ClassTable).internAll types).id? part = some id ∧
      (({} : ClassTable).internAll types).types[id]? = some part := by
  have named := internAll_knows {} types type listed part inside
  obtain ⟨id, found⟩ := Option.isSome_iff_exists.mp (Std.TreeMap.mem_iff_isSome_getElem?.mp named)
  have numbered : (({} : ClassTable).internAll types).id? part = some id := by
    rw [id?, if_neg (by simp [TypeName.isPrimitive_of_numbered inside]), found]
  exact ⟨id, numbered, type_of_id?_internAll allRegular
    ((allRegular type listed).numbered inside) numbered⟩

namespace ClassPool

variable {pool : ClassPool}

/-- Only regular types are numbered. -/
theorem regular_of_mem_interned (pool : ClassPool) :
    ∀ type ∈ Link.interned pool.typedRecords pool.missingNames, type.Regular :=
  fun _ listed => (isRead_of_mem_interned listed).regular

/-- The classes of a linked graph have regular types. -/
theorem regular_of_mem_classes {node : ClassNode} (listed : node ∈ pool.link.1.classes) :
    node.type.Regular := by
  obtain ⟨id, stands⟩ := Array.mem_iff_getElem?.mp listed
  have typeAt := @Link.graph_types pool.typedRecords pool.missingNames id
  rw [← link_graph, stands, Option.map_some, Link.number_eq] at typeAt
  exact (ClassTable.regular_of_internAll (regular_of_mem_interned pool) node.type
    (Array.mem_of_getElem? typeAt.symm)).1

/-- At the number of a type stands that type. -/
theorem type_of_id? {type : TypeName} (regular : type.Regular) {id : ClassId}
    (found : (Link.number pool.typedRecords pool.missingNames).id? type = some id) :
    pool.link.1.classes[id]?.map ClassNode.type = some type := by
  rw [link_graph, Link.graph_types]
  rw [Link.number_eq] at found ⊢
  exact ClassTable.type_of_id?_internAll (regular_of_mem_interned pool) regular found

/-- Whatever is numbered with a type that linking meets has a node of its own. -/
theorem exists_id?_of_interned {type part : TypeName}
    (listed : type ∈ Link.interned pool.typedRecords pool.missingNames)
    (inside : part ∈ type.numbered) :
    ∃ id, (Link.number pool.typedRecords pool.missingNames).id? part = some id ∧
      pool.link.1.classes[id]?.map ClassNode.type = some part := by
  simp only [link_graph, Link.graph_types, Link.number_eq]
  exact ClassTable.exists_id?_of_numbered (regular_of_mem_interned pool) listed inside

/-- Following components inwards from the number of a type leads to its innermost element, if that
is a class. -/
theorem isInnermost_iff_base {type : TypeName} (regular : type.Regular) {id target : ClassId}
    (found : (Link.number pool.typedRecords pool.missingNames).id? type = some id) :
    IsInnermost pool.link.1.classes id target ↔ ∃ name, type.base = .object name ∧
      (Link.number pool.typedRecords pool.missingNames).id? (.object name) = some target := by
  induction type generalizing id with
  | primitive kind => simp [ClassTable.id?, TypeName.isPrimitive] at found
  | object name =>
    obtain ⟨node, stands, sameType⟩ := Option.map_eq_some_iff.mp (type_of_id? regular found)
    rw [isInnermost_iff stands, sameType]
    simp [TypeName.isArray, TypeName.base, found]
  | array component inductionHypothesis =>
    obtain ⟨node, stands, sameType⟩ := Option.map_eq_some_iff.mp (type_of_id? regular found)
    have below := @Link.graph_component pool.typedRecords pool.missingNames id node stands
    rw [sameType, TypeName.component?, Option.bind_some] at below
    rw [isInnermost_iff stands, sameType, below]
    simp only [TypeName.isArray, Bool.true_eq_false, false_and, false_or, true_and, TypeName.base]
    cases part : (Link.number pool.typedRecords pool.missingNames).id? component with
    | some number => simpa using inductionHypothesis regular.2 part
    | none =>
      -- Only a primitive component has no number, and that is no class.
      have typeAt : (Link.number pool.typedRecords pool.missingNames).types[id]? =
          some (.array component) := by
        rw [← Link.graph_types, ← link_graph, stands, Option.map_some, sameType]
      have known := ((Link.number_sound _ _).arrays id component typeAt).2
      cases component with
      | primitive kind => simp [TypeName.base]
      | object name =>
        obtain ⟨earlier, _, numbered⟩ := known rfl
        simp [ClassTable.id?, TypeName.isPrimitive, numbered] at part
      | array inner =>
        obtain ⟨earlier, _, numbered⟩ := known rfl
        simp [ClassTable.id?, TypeName.isPrimitive, numbered] at part

end ClassPool

/-- An array of regular types is named by a bracket and the descriptor of its component with
dots. -/
theorem TypeName.Regular.name_array {component : TypeName} (regular : (array component).Regular) :
    (array component).name = "[" ++ Name.dotted component.descriptor := by
  apply String.toList_inj.mp
  rw [name, String.toList_ofList, regular.2.elementLetters_eq_dotted, String.toList_append]
  rfl

/-- Types that are read and not primitive are the same if their names are. The name of an array is a
bracket and the descriptor of its component with dots, and it is the text with brackets in front
from which the array was read. So interning keeps all types apart: each of them, and each that is
numbered with it, stands itself under its number, and in a graph it has a node of its own. -/
theorem TypeName.told_apart_by_name :
    (∀ left right : TypeName, left.IsRead → right.IsRead → left.isPrimitive = false →
      right.isPrimitive = false → left.name = right.name → left = right) ∧
    (∀ component : TypeName, (array component).IsRead →
      (array component).name = "[" ++ Name.dotted component.descriptor) ∧
    (∀ (raw : String) (type : TypeName), raw.toList.head? = some '[' →
      (ofClassName raw = .ok type ∨ parse raw = .ok type ∨ ofDescriptor raw = .ok type) →
        type.name = Name.dotted raw) ∧
    (∀ types : List TypeName, (∀ type ∈ types, type.IsRead) →
      ∀ type ∈ types, ∀ part ∈ type.numbered,
        ∃ id, (({} : ClassTable).internAll types).id? part = some id ∧
          (({} : ClassTable).internAll types).types[id]? = some part) ∧
    ∀ pool : ClassPool, ∀ type ∈ Link.interned pool.typedRecords pool.missingNames,
      type.IsRead ∧ ∀ part ∈ type.numbered,
        ∃ id, (Link.number pool.typedRecords pool.missingNames).id? part = some id ∧
          pool.link.1.classes[id]?.map ClassNode.type = some part := by
  refine ⟨?_, ?_, ?_, ?_, ?_⟩
  · intro left right leftRead rightRead leftReference rightReference same
    exact eq_of_name_eq leftRead.regular rightRead.regular leftReference rightReference same
  · exact fun component isRead => isRead.regular.name_array
  · rintro raw type opens (read | read | read)
    · exact name_of_ofClassName opens read
    · exact name_of_parse opens read
    · exact name_of_ofDescriptor opens read
  · intro types allRead type listed part inside
    exact ClassTable.exists_id?_of_numbered (fun given isGiven => (allRead given isGiven).regular)
      listed inside
  · intro pool type listed
    exact ⟨pool.isRead_of_mem_interned listed, fun part => pool.exists_id?_of_interned listed⟩

/-- A class that is named like a primitive type, and the arrays of both. -/
def TypeName.keywordTypes : List TypeName :=
  [object "int", array (primitive .int), array (object "int")]

/-- They are all read, and interning does not mix them up. -/
theorem TypeName.told_apart_by_name_keyword :
    (∀ type ∈ keywordTypes, type.IsRead) ∧
      (array (object "int")).name = "[" ++ Name.dotted (object "int").descriptor ∧
      (array (primitive .int)).name = Name.dotted "[I" ∧
      ∃ id, (({} : ClassTable).internAll keywordTypes).id? (array (object "int")) = some id ∧
        (({} : ClassTable).internAll keywordTypes).types[id]? = some (array (object "int")) := by
  have readClass : ofDescriptor "Lint;" = .ok (object "int") := by rfl
  have readPrimitives : parse "[I" = .ok (array (primitive .int)) := by rfl
  have readClasses : ofClassName "[Lint;" = .ok (array (object "int")) := by rfl
  have allRead : ∀ type ∈ keywordTypes, type.IsRead := by
    intro type listed
    simp only [keywordTypes, List.mem_cons, List.not_mem_nil, or_false] at listed
    rcases listed with rfl | rfl | rfl
    · exact .descriptor readClass
    · exact .spelling readPrimitives
    · exact .className readClasses
  obtain ⟨_, arrays, written, interned, _⟩ := told_apart_by_name
  exact ⟨allRead, arrays _ (.className readClasses),
    written "[I" _ rfl (Or.inr (Or.inl readPrimitives)),
    interned keywordTypes allRead _ (by simp [keywordTypes]) _ (mem_numbered_self rfl)⟩

end ClassAtlas
