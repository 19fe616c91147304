import ClassAtlas.Proofs.ClassNames
import ClassAtlas.Proofs.Completion
import ClassAtlas.Proofs.Mentions
import ClassAtlas.Proofs.WellFormed

/-!
# The classes of a linked pool

Linking makes a class of every type that the records of a pool call for. Which these are is said
here by rules of their own: the classes that records declare, the missing ones, what is mentioned
anywhere in a record, and for an array its component and the root class. The names that get a
number when the types are interned are shown to be the names of these types.

A class is resolved where its record could be read and a stub otherwise. This rests on the order
that completing keeps in a pool: each record stands under its own dotted name, so that the class it
declares has that name too, and no two records fill one class.
-/

namespace ClassAtlas

namespace TypeName

variable {type part component : TypeName}

/-- Nothing is numbered with a primitive type. -/
theorem isPrimitive_of_mem_numbered (listed : part ∈ type.numbered) : type.isPrimitive = false := by
  cases type with
  | primitive kind => simp [numbered] at listed
  | object name => rfl
  | array component => rfl

/-- With an array, its component and the root class are numbered. -/
theorem numbered_closed (listed : array component ∈ type.numbered) :
    (component.isPrimitive = false → component ∈ type.numbered) ∧ rootClass ∈ type.numbered := by
  induction type with
  | primitive kind => simp [numbered] at listed
  | object name => simp [numbered] at listed
  | array inner inductionHypothesis =>
    simp only [numbered, List.mem_append, List.mem_cons, List.not_mem_nil, or_false] at listed ⊢
    rcases listed with inside | isRoot | isSelf
    · obtain ⟨innermore, root⟩ := inductionHypothesis inside
      exact ⟨fun reference => Or.inl (innermore reference), Or.inl root⟩
    · simp [rootClass] at isRoot
    · cases isSelf
      exact ⟨fun reference => Or.inl (mem_numbered_self reference), Or.inr (Or.inl trivial)⟩

end TypeName

namespace ClassTable

/-- Adding a type brings its name into the index, and no other. -/
theorem mem_index_add_iff {table : ClassTable} {type : TypeName} {name : String} :
    name ∈ (table.add type).index ↔ name ∈ table.index ∨ type.name = name := by
  by_cases known : type.name ∈ table.index
  · rw [add_of_mem known]
    constructor
    · exact Or.inl
    · rintro (old | rfl)
      · exact old
      · exact known
  · simp [add_of_not_mem known, or_comm]

/-- The names that have a number after interning: those that had one, and those of what is
numbered with the types. -/
theorem mem_index_internAll_iff (table : ClassTable) (types : List TypeName) {name : String} :
    name ∈ (table.internAll types).index ↔
      name ∈ table.index ∨ ∃ type ∈ types, ∃ part ∈ type.numbered, part.name = name := by
  have added (parts : List TypeName) (table : ClassTable) :
      name ∈ (parts.foldl add table).index ↔
        name ∈ table.index ∨ ∃ part ∈ parts, part.name = name := by
    induction parts generalizing table with
    | nil => simp
    | cons first rest inductionHypothesis =>
      rw [List.foldl_cons, inductionHypothesis, mem_index_add_iff, List.exists_mem_cons_iff,
        or_assoc]
  induction types generalizing table with
  | nil => simp [internAll]
  | cons first rest inductionHypothesis =>
    rw [List.exists_mem_cons_iff, ← or_assoc, ← added, ← intern_eq_foldl]
    exact inductionHypothesis (table.intern first)

end ClassTable

namespace Link

variable {records : List TypedRecord} {missing : List String}

/-- The types that are interned when a graph is made, in order. -/
def interned (records : List TypedRecord) (missing : List String) : List TypeName :=
  records.map (fun typed => typed.types.this) ++
    missing.filterMap (fun name => (TypeName.ofClassName name).toOption) ++
      records.flatMap fun typed => typed.types.mentions

/-- Classes are numbered by interning all that is needed, in one list. -/
theorem number_eq (records : List TypedRecord) (missing : List String) :
    number records missing = ({} : ClassTable).internAll (interned records missing) := by
  simp only [number, interned, ClassTable.internAll, List.foldl_append]

/-- The names that classes of a linked graph have are those that have a number. -/
theorem exists_graph_name_iff {name : String} :
    (∃ node ∈ (graph records missing).classes, node.name = name) ↔
      name ∈ (number records missing).index := by
  have sound := number_sound records missing
  rw [Std.TreeMap.mem_iff_isSome_getElem?, Option.isSome_iff_exists]
  constructor
  · rintro ⟨node, listed, rfl⟩
    obtain ⟨id, stands⟩ := Array.mem_iff_getElem?.mp listed
    have typeAt := @graph_types records missing id
    rw [stands] at typeAt
    exact ⟨id, (sound.index_iff _ id).mpr ⟨node.type, typeAt.symm, rfl⟩⟩
  · rintro ⟨id, found⟩
    obtain ⟨type, typeAt, named⟩ := (sound.index_iff name id).mp found
    rw [← graph_types, Option.map_eq_some_iff] at typeAt
    obtain ⟨node, stands, rfl⟩ := typeAt
    exact ⟨node, Array.mem_of_getElem? stands, named⟩

/-- No two classes of a linked graph have one name. -/
theorem graph_name_injective {left right : ClassId} {first second : ClassNode}
    (atLeft : (graph records missing).classes[left]? = some first)
    (atRight : (graph records missing).classes[right]? = some second)
    (same : first.name = second.name) : left = right := by
  have leftType := @graph_types records missing left
  have rightType := @graph_types records missing right
  rw [atLeft] at leftType
  rw [atRight] at rightType
  exact (number_sound records missing).injective leftType.symm rightType.symm same

/-- So two classes of one name are the same. -/
theorem eq_of_name_eq {first second : ClassNode}
    (firstListed : first ∈ (graph records missing).classes)
    (secondListed : second ∈ (graph records missing).classes)
    (same : first.name = second.name) : first = second := by
  obtain ⟨left, atLeft⟩ := Array.mem_iff_getElem?.mp firstListed
  obtain ⟨right, atRight⟩ := Array.mem_iff_getElem?.mp secondListed
  obtain rfl := graph_name_injective atLeft atRight same
  exact Option.some.inj (atLeft.symm.trans atRight)

/-- The class that a record declares has a number. -/
theorem id?_this (readable : ∀ typed ∈ records, typed.types.Readable) {typed : TypedRecord}
    (listed : typed ∈ records) :
    (number records missing).id? typed.types.this =
      some ((number records missing).id typed.types.this) :=
  (number_knows records missing listed _ List.mem_cons_self).id?_eq
    (readable typed listed).reference

/-- What is known of a class does not change once the records are declared. -/
theorem exists_declared_of_graph {id : ClassId} {node : ClassNode}
    (stands : (graph records missing).classes[id]? = some node) :
    ∃ declared, (declaredNodes (number records missing) (rows records missing))[id]? =
      some declared ∧ declared.resolution = node.resolution := by
  have same := @graph_view_declared records missing _ ClassNode.resolution (fun _ => rfl)
    (fun _ _ => rfl) id
  rw [stands, Option.map_some, eq_comm, Option.map_eq_some_iff] at same
  exact same

/-- A class of a linked graph is a stub, or it was made from a record that declares it. -/
theorem graph_resolution {id : ClassId} {node : ClassNode}
    (stands : (graph records missing).classes[id]? = some node) :
    node.resolution = .stub ∨ ∃ typed ∈ records,
      (number records missing).id typed.types.this = id ∧
        node.resolution = .resolved typed.entry.source typed.entry.pulledIn := by
  have each : Throughout (declaredNodes (number records missing) (rows records missing))
      fun id node => node.resolution = .stub ∨ ∃ typed ∈ records,
        (number records missing).id typed.types.this = id ∧
          node.resolution = .resolved typed.entry.source typed.entry.pulledIn := by
    refine declaredNodes_throughout ?_ ?_
    · exact fun id type atId => Or.inl rfl
    · intro typed declarations listed node _
      obtain ⟨present, start, rfl⟩ := mem_rows listed
      exact Or.inr ⟨typed, present, rfl, rfl⟩
  obtain ⟨declared, atId, sameResolution⟩ := exists_declared_of_graph stands
  rw [← sameResolution]
  exact each id declared atId

/-- Every record has a row. -/
theorem exists_row {typed : TypedRecord} (listed : typed ∈ records) :
    ∃ declarations, (typed, declarations) ∈ rows records missing := by
  have first (table : ClassTable) (start : MemberId) (records : List TypedRecord) :
      (declareAll table start records).map Prod.fst = records := by
    induction records generalizing start with
    | nil => rfl
    | cons typed rest inductionHypothesis =>
      rw [declareAll, List.map_cons, inductionHypothesis]
  rw [← first (number records missing) 0 records] at listed
  obtain ⟨⟨_, declarations⟩, row, rfl⟩ := List.mem_map.mp listed
  exact ⟨declarations, row⟩

/-- The class of a record is no stub. -/
theorem graph_not_stub {typed : TypedRecord} (listed : typed ∈ records) {node : ClassNode}
    (stands : (graph records missing).classes[(number records missing).id typed.types.this]? =
      some node) : node.resolution ≠ .stub := by
  obtain ⟨declarations, row⟩ := @exists_row records missing typed listed
  obtain ⟨_, start, rfl⟩ := mem_rows row
  obtain ⟨before, after, split⟩ := List.append_of_mem row
  -- The row sets the resolution, and no later row takes it away.
  have each : Throughout (declaredNodes (number records missing) (rows records missing))
      fun id node => id = (number records missing).id typed.types.this →
        node.resolution ≠ .stub := by
    rw [split, declaredNodes, List.foldl_append, List.foldl_cons]
    refine Throughout.foldl ?_ ?_
    · intro id node stands isOwner
      subst isOwner
      simp only [Declarations.ofTyped, Array.getElem?_modify, if_true,
        Option.map_eq_some_iff] at stands
      obtain ⟨_, _, rfl⟩ := stands
      simp [ClassNode.declare]
    · rintro ⟨other, others⟩ _ filled kept
      refine Throughout.modify kept _ _ fun node _ _ => ?_
      simp [ClassNode.declare]
  obtain ⟨declared, atId, sameResolution⟩ := exists_declared_of_graph stands
  rw [← sameResolution]
  exact each _ declared atId rfl

end Link

/-- What an artifact holds has a dotted name. -/
theorem Artifact.dotted_of_record {artifact : Artifact} {checksums : Bool} {record : ClassRecord}
    {source : Source} (isRead : artifact.record checksums = .ok (record, source)) :
    '/' ∉ record.name.toList := by
  rw [Artifact.record] at isRead
  split at isRead
  · simp at isRead
  · split at isRead
    · simp at isRead
    · rename_i read
      cases isRead
      exact ClassFile.dotted_of_read read

namespace ClassPool

/-- All records have dotted names, as those read from class files have. -/
def Dotted (pool : ClassPool) : Prop :=
  ∀ entry ∈ pool.entries, '/' ∉ entry.record.name.toList

instance (pool : ClassPool) : Decidable pool.Dotted :=
  inferInstanceAs (Decidable (∀ entry ∈ pool.entries, '/' ∉ entry.record.name.toList))

/-- The pools that are ready for linking: those of imported classes, completed with a resolver or
without one. -/
inductive Completed : ClassPool → Prop
  | withResolver {pool : ClassPool} (collected : pool.Collected) (resolver : Resolver) :
      Completed (pool.complete resolver)
  | withoutResolver {pool : ClassPool} (collected : pool.Collected) :
      Completed pool.completeWithoutResolver

/-- Adding a record of a dotted name keeps the names dotted. -/
theorem Dotted.add {pool : ClassPool} (dotted : pool.Dotted) {record : ClassRecord}
    (isDotted : '/' ∉ record.name.toList) (source : Source) :
    (pool.add record source).1.Dotted := by
  rw [ClassPool.add]
  split
  · exact dotted
  · intro entry listed
    obtain ⟨key, present⟩ := mem_entries_iff.mp listed
    rw [put, Std.TreeMap.getElem?_insert] at present
    split at present
    · cases present
      exact isDotted
    · exact dotted entry (mem_entries_iff.mpr ⟨key, present⟩)

/-- Reading artifacts brings dotted names only. -/
theorem Dotted.collect {pool : ClassPool} (dotted : pool.Dotted) (artifacts : List Artifact) :
    (artifacts.foldl ClassPool.collect pool).Dotted := by
  induction artifacts generalizing pool with
  | nil => exact dotted
  | cons artifact rest inductionHypothesis =>
    refine inductionHypothesis ?_
    rw [ClassPool.collect]
    split
    · rename_i record source isRead
      exact dotted.add (Artifact.dotted_of_record isRead) source
    · exact dotted

/-- The empty pool has no names that are not dotted. -/
theorem dotted_empty (checksums : Bool) : (ClassPool.empty checksums).Dotted := by
  simp [Dotted, entries, ClassPool.empty]

/-- Records stand under their own names, and missing classes have names of classes. -/
structure Filed (pool : ClassPool) : Prop where
  named {name : String} {entry : PoolRecord}
    (present : pool.slots[name]? = some (.present entry)) : entry.record.name = name
  dotted {name : String} {entry : PoolRecord}
    (present : pool.slots[name]? = some (.present entry)) : '/' ∉ name.toList
  missing {name : String} (absent : pool.slots[name]? = some .missing) : TypeName.Proper name

/-- Completing keeps a pool in this order: what is searched for is the name of a class file, and
what is found holds the class of that name. -/
theorem filed_complete {pool : ClassPool} (collected : pool.Collected) (dotted : pool.Dotted)
    (resolver : Resolver) : (pool.complete resolver).Filed := by
  obtain ⟨searched, run⟩ := completes_completeFrom resolver pool.referencedFiles pool
  -- A name is either searched, and then holds what its search brought, or stays as it was.
  have old {name : String} {slot : Slot} (unsearched : name ∉ searched)
      (registered : (pool.complete resolver).slots[name]? = some slot) :
      ∃ entry, slot = .present entry ∧ entry.record.name = name ∧ '/' ∉ name.toList := by
    rw [complete, run.getElem?_of_not_mem unsearched] at registered
    obtain ⟨entry, rfl, _, rfl⟩ := collected.named registered
    exact ⟨entry, rfl, rfl, dotted entry (mem_entries_iff.mpr ⟨_, registered⟩)⟩
  have new {name : String} {entry : PoolRecord} (isSearched : name ∈ searched)
      (registered : (pool.complete resolver).slots[name]? = some (.present entry)) :
      entry.record.name = name ∧ '/' ∉ name.toList := by
    rw [complete, run.getElem?_of_mem isSearched] at registered
    obtain ⟨⟨_, bytes, _, _, read, rfl⟩, _⟩ := supplies_of_slot_pull _ (Option.some.inj registered)
    exact ⟨rfl, ClassFile.dotted_of_read read⟩
  have present {name : String} {entry : PoolRecord}
      (registered : (pool.complete resolver).slots[name]? = some (.present entry)) :
      entry.record.name = name ∧ '/' ∉ name.toList := by
    by_cases isSearched : name ∈ searched
    · exact new isSearched registered
    · obtain ⟨_, ⟨⟩, kept⟩ := old isSearched registered
      exact kept
  refine ⟨fun registered => (present registered).1, fun registered => (present registered).2, ?_⟩
  intro name absent
  by_cases isSearched : name ∈ searched
  · have wanted := (run.mem_searched_iff.mp isSearched).1
    cases wanted with
    | referenced _ _ leads => exact leads.proper
    | supertype _ _ _ _ leads => exact leads.proper
  · obtain ⟨_, ⟨⟩, _⟩ := old isSearched absent

/-- The records of a pool are still there when it is completed, so that they were dotted before if
they are afterwards. -/
theorem dotted_of_complete {pool : ClassPool} {resolver : Resolver}
    (dotted : (pool.complete resolver).Dotted) : pool.Dotted := by
  obtain ⟨searched, run⟩ := completes_completeFrom resolver pool.referencedFiles pool
  intro entry listed
  obtain ⟨name, present⟩ := mem_entries_iff.mp listed
  have unsearched : name ∉ searched := fun isSearched =>
    run.fresh_of_mem isSearched (Std.TreeMap.mem_iff_isSome_getElem?.mpr (by simp [present]))
  refine dotted entry (mem_entries_iff.mpr ⟨name, ?_⟩)
  rw [complete, run.getElem?_of_not_mem unsearched, present]

/-- A completed pool of dotted names is in this order, however it was completed. -/
theorem Completed.filed {pool : ClassPool} (completed : pool.Completed) (dotted : pool.Dotted) :
    pool.Filed := by
  cases completed with
  | withResolver collected resolver =>
    exact filed_complete collected (dotted_of_complete dotted) resolver
  | withoutResolver collected =>
    rw [← complete_of_unknown .none (fun _ => rfl)] at dotted ⊢
    exact filed_complete collected (dotted_of_complete dotted) .none

/-- The classes that a linked pool has to have: those of its records, those missing, those that
its records mention, and what belongs to an array. -/
inductive Needs (pool : ClassPool) : TypeName → Prop
  | declared {name : String} {entry : PoolRecord} {types : RecordTypes}
      (present : pool.slots[name]? = some (.present entry))
      (typed : RecordTypes.ofRecord entry.record = .ok types) : Needs pool (.object name)
  | missing {name : String} (absent : pool.slots[name]? = some .missing)
      (noKeyword : Primitive.ofKeyword? name = none) : Needs pool (.object name)
  | mentioned {name : String} {entry : PoolRecord} {types : RecordTypes} {type : TypeName}
      (present : pool.slots[name]? = some (.present entry))
      (typed : RecordTypes.ofRecord entry.record = .ok types)
      (mentions : entry.record.Mentions type) (reference : type.isPrimitive = false) :
      Needs pool type
  | component {component : TypeName} (needs : Needs pool (.array component))
      (reference : component.isPrimitive = false) : Needs pool component
  | root {component : TypeName} (needs : Needs pool (.array component)) : Needs pool .rootClass

/-- All that is numbered with a needed type is needed. -/
theorem Needs.numbered {pool : ClassPool} {type part : TypeName} (needs : pool.Needs type)
    (listed : part ∈ type.numbered) : pool.Needs part := by
  induction type with
  | primitive kind => simp [TypeName.numbered] at listed
  | object name =>
    rw [TypeName.numbered, List.mem_singleton] at listed
    exact listed ▸ needs
  | array component inductionHypothesis =>
    simp only [TypeName.numbered, List.mem_append, List.mem_cons, List.not_mem_nil,
      or_false] at listed
    rcases listed with inside | rfl | rfl
    · have reference := TypeName.isPrimitive_of_mem_numbered inside
      exact inductionHypothesis (.component needs reference) inside
    · exact .root needs
    · exact needs

/-- The missing names are those registered as missing. -/
theorem mem_missingNames_iff {pool : ClassPool} {name : String} :
    name ∈ pool.missingNames ↔ pool.slots[name]? = some .missing := by
  simp only [missingNames, List.mem_filterMap, Prod.exists,
    Std.TreeMap.mem_toList_iff_getElem?_eq_some]
  constructor
  · rintro ⟨key, slot, registered, isMissing⟩
    cases slot with
    | present entry => simp at isMissing
    | missing =>
      cases isMissing
      exact registered
  · exact fun absent => ⟨name, .missing, absent, rfl⟩

/-- The typed records are the records whose types can be read, with these types. -/
theorem mem_typedRecords_iff {pool : ClassPool} {typed : TypedRecord} :
    typed ∈ pool.typedRecords ↔
      (∃ name : String, pool.slots[name]? = some (.present typed.entry)) ∧
        RecordTypes.ofRecord typed.entry.record = .ok typed.types := by
  simp only [typedRecords, typings, List.filterMap_map, List.mem_filterMap, Function.comp_apply,
    mem_entries_iff]
  constructor
  · rintro ⟨entry, present, isTyped⟩
    cases read : RecordTypes.ofRecord entry.record with
    | error problem => simp [Link.typed?, read] at isTyped
    | ok types =>
      simp only [Link.typed?, read, Option.some.injEq] at isTyped
      subst isTyped
      exact ⟨present, read⟩
  · rintro ⟨present, read⟩
    exact ⟨typed.entry, present, by rw [read, Link.typed?]⟩

/-- The class that a typed record declares stands at its number. -/
theorem graph_name_of_typed {pool : ClassPool} {typed : TypedRecord}
    (isTyped : typed ∈ pool.typedRecords) :
    (Link.graph pool.typedRecords pool.missingNames).classes[
      (Link.number pool.typedRecords pool.missingNames).id typed.types.this]?.map ClassNode.name =
        some typed.types.this.name :=
  Link.graph_name_of_id? (Link.id?_this readable_of_mem_typedRecords isTyped)

section Filed

variable {pool : ClassPool} (filed : pool.Filed)

include filed

/-- The class that a typed record declares has the name under which the record stands. -/
theorem Filed.this_eq {typed : TypedRecord} (listed : typed ∈ pool.typedRecords) :
    pool.slots[typed.entry.record.name]? = some (.present typed.entry) ∧
      typed.types.this = .object typed.entry.record.name := by
  obtain ⟨⟨name, present⟩, read⟩ := mem_typedRecords_iff.mp listed
  obtain rfl := filed.named present
  have thisRead := (RecordTypes.readFrom_of_read read).this
  exact ⟨present, TypeName.eq_object_of_ofDeclaredName (filed.dotted present) thisRead⟩

/-- Whatever is interned is needed, unless it is primitive. -/
theorem Filed.needs_of_interned {type : TypeName}
    (listed : type ∈ Link.interned pool.typedRecords pool.missingNames)
    (reference : type.isPrimitive = false) : pool.Needs type := by
  rw [Link.interned, List.mem_append, List.mem_append] at listed
  rcases listed with (isDeclared | isMissing) | isMentioned
  · obtain ⟨typed, isTyped, rfl⟩ := List.mem_map.mp isDeclared
    obtain ⟨present, isThis⟩ := filed.this_eq isTyped
    rw [isThis]
    exact .declared present (mem_typedRecords_iff.mp isTyped).2
  · obtain ⟨name, absent, read⟩ := List.mem_filterMap.mp isMissing
    have registered := mem_missingNames_iff.mp absent
    cases keyword : Primitive.ofKeyword? name with
    | some kind =>
      rw [TypeName.ofClassName, keyword] at read
      cases read
      simp [TypeName.isPrimitive] at reference
    | none =>
      rw [TypeName.ofClassName_of_proper (filed.missing registered) keyword] at read
      cases read
      exact .missing registered keyword
  · obtain ⟨typed, isTyped, mentioned⟩ := List.mem_flatMap.mp isMentioned
    have read := (mem_typedRecords_iff.mp isTyped).2
    have mentions := (RecordTypes.mem_mentions_iff read).mp mentioned
    exact .mentioned (filed.this_eq isTyped).1 read mentions reference

/-- Whatever is needed is numbered with something that is interned. -/
theorem Filed.exists_interned_of_needs {type : TypeName} (needs : pool.Needs type) :
    ∃ whole ∈ Link.interned pool.typedRecords pool.missingNames, type ∈ whole.numbered := by
  -- By induction on why the type is needed: what belongs to an array is numbered with the same
  -- interned type as the array.
  induction needs with
  | @declared name entry types present read =>
    have isTyped : { entry, types } ∈ pool.typedRecords :=
      mem_typedRecords_iff.mpr ⟨⟨name, present⟩, read⟩
    have isThis := (filed.this_eq isTyped).2
    rw [filed.named present] at isThis
    refine ⟨.object name, ?_, TypeName.mem_numbered_self rfl⟩
    rw [Link.interned, List.mem_append, List.mem_append, ← isThis]
    exact Or.inl (Or.inl (List.mem_map_of_mem isTyped))
  | @missing name absent noKeyword =>
    refine ⟨.object name, ?_, TypeName.mem_numbered_self rfl⟩
    rw [Link.interned, List.mem_append, List.mem_append]
    refine Or.inl (Or.inr (List.mem_filterMap.mpr ⟨name, mem_missingNames_iff.mpr absent, ?_⟩))
    rw [TypeName.ofClassName_of_proper (filed.missing absent) noKeyword]
    rfl
  | @mentioned name entry types type present read mentions reference =>
    have isTyped : { entry, types } ∈ pool.typedRecords :=
      mem_typedRecords_iff.mpr ⟨⟨name, present⟩, read⟩
    refine ⟨type, ?_, TypeName.mem_numbered_self reference⟩
    rw [Link.interned, List.mem_append]
    have mentioned := (RecordTypes.mem_mentions_iff read).mpr mentions
    exact Or.inr (List.mem_flatMap.mpr ⟨_, isTyped, mentioned⟩)
  | component _ reference inductionHypothesis =>
    obtain ⟨whole, listed, inside⟩ := inductionHypothesis
    exact ⟨whole, listed, (TypeName.numbered_closed inside).1 reference⟩
  | root _ inductionHypothesis =>
    obtain ⟨whole, listed, inside⟩ := inductionHypothesis
    exact ⟨whole, listed, (TypeName.numbered_closed inside).2⟩

/-- The names of the classes of a linked pool are those of what is needed. -/
theorem Filed.exists_name_iff {name : String} :
    (∃ node ∈ pool.link.1.classes, node.name = name) ↔
      ∃ type, pool.Needs type ∧ type.name = name := by
  rw [link_graph, Link.exists_graph_name_iff, Link.number_eq, ClassTable.mem_index_internAll_iff]
  constructor
  · rintro (impossible | ⟨whole, listed, part, inside, named⟩)
    · simp at impossible
    · have reference := TypeName.isPrimitive_of_mem_numbered inside
      exact ⟨part, (filed.needs_of_interned listed reference).numbered inside, named⟩
  · rintro ⟨type, needs, named⟩
    obtain ⟨whole, listed, inside⟩ := filed.exists_interned_of_needs needs
    exact Or.inr ⟨whole, listed, type, inside, named⟩

/-- A class made from a record has the name of a record whose types can be read, and its source. -/
theorem Filed.exists_record_of_resolved {node : ClassNode} (listed : node ∈ pool.link.1.classes)
    (resolved : node.resolution ≠ .stub) :
    ∃ entry types, pool.slots[node.name]? = some (.present entry) ∧
      RecordTypes.ofRecord entry.record = .ok types ∧
      node.resolution = .resolved entry.source entry.pulledIn := by
  obtain ⟨id, stands⟩ := Array.mem_iff_getElem?.mp listed
  rw [link_graph] at stands
  obtain ⟨typed, isTyped, rfl, isResolved⟩ := (Link.graph_resolution stands).resolve_left resolved
  have named := graph_name_of_typed isTyped
  obtain ⟨present, isThis⟩ := filed.this_eq isTyped
  rw [stands, Option.map_some, Option.some.injEq, isThis, TypeName.name] at named
  exact ⟨typed.entry, typed.types, named ▸ present, (mem_typedRecords_iff.mp isTyped).2, isResolved⟩

/-- A record whose types can be read becomes the class of its name. -/
theorem Filed.exists_resolved_of_record {name : String} {entry : PoolRecord} {types : RecordTypes}
    (present : pool.slots[name]? = some (.present entry))
    (read : RecordTypes.ofRecord entry.record = .ok types) :
    ∃ (id : ClassId) (node : ClassNode), pool.link.1.classes[id]? = some node ∧ node.name = name ∧
      node.resolution = .resolved entry.source entry.pulledIn := by
  have isTyped : { entry, types } ∈ pool.typedRecords :=
    mem_typedRecords_iff.mpr ⟨⟨name, present⟩, read⟩
  have isThis := (filed.this_eq isTyped).2
  obtain ⟨node, stands, named⟩ := Option.map_eq_some_iff.mp (graph_name_of_typed isTyped)
  rw [isThis, TypeName.name, filed.named present] at named
  have resolved := Link.graph_not_stub isTyped stands
  -- The class comes from some record of its name, and there is no other than this one.
  obtain ⟨other, _, again, _, isResolved⟩ :=
    filed.exists_record_of_resolved (Array.mem_of_getElem? stands) resolved
  rw [named, present] at again
  cases again
  exact ⟨_, node, stands, named, isResolved⟩

/-- No two records of a pool have one name. -/
theorem Filed.names_nodup : (pool.entries.map fun entry => entry.record.name).Nodup := by
  rw [List.Nodup, List.pairwise_map, entries, List.pairwise_filterMap]
  refine (Std.TreeMap.distinct_keys_toList).imp_of_mem ?_
  rintro ⟨key, slot⟩ ⟨otherKey, otherSlot⟩ first second different entry isEntry other isOther same
  rw [Std.TreeMap.mem_toList_iff_getElem?_eq_some] at first second
  cases slot with
  | missing => simp [Slot.record?] at isEntry
  | present found =>
    cases otherSlot with
    | missing => simp [Slot.record?] at isOther
    | present otherFound =>
      cases isEntry
      cases isOther
      rw [filed.named first, filed.named second] at same
      exact different (by rw [same]; simp)

end Filed

/-- The types of the record under a name cannot be read, and this is the diagnostic of it. -/
def Drops (pool : ClassPool) (name : String) (diagnostic : Diagnostic) : Prop :=
  ∃ entry problem, pool.slots[name]? = some (.present entry) ∧
    RecordTypes.ofRecord entry.record = .error problem ∧
    diagnostic = {
      kind := .parse, uri := entry.source.uri
      message := "class " ++ name ++ ": " ++ problem.message }

/-- The records whose types cannot be read leave one diagnostic each, in order. -/
theorem Filed.dropped {pool : ClassPool} (filed : pool.Filed) :
    ∃ names : List String, names.Nodup ∧
      (∀ name, name ∈ names ↔ ∃ diagnostic, pool.Drops name diagnostic) ∧
      List.Forall₂ pool.Drops names (pool.typings.filterMap Link.diagnostic?) := by
  let isUnread (entry : PoolRecord) : Bool := (RecordTypes.ofRecord entry.record).toOption.isNone
  refine ⟨(pool.entries.filter isUnread).map fun entry => entry.record.name, ?_, ?_, ?_⟩
  · exact filed.names_nodup.sublist (List.filter_sublist.map _)
  · intro name
    simp only [List.mem_map, List.mem_filter, mem_entries_iff, isUnread]
    constructor
    · rintro ⟨entry, ⟨⟨key, present⟩, unread⟩, rfl⟩
      cases read : RecordTypes.ofRecord entry.record with
      | ok types => simp [read, Except.toOption] at unread
      | error problem =>
        refine ⟨_, entry, problem, ?_, read, rfl⟩
        rw [filed.named present]
        exact present
    · rintro ⟨diagnostic, entry, problem, present, unread, _⟩
      exact ⟨entry, ⟨⟨name, present⟩, by simp [unread, Except.toOption]⟩, filed.named present⟩
  · rw [typings, List.filterMap_map]
    have each : ∀ entry ∈ pool.entries, pool.slots[entry.record.name]? = some (.present entry) := by
      intro entry listed
      obtain ⟨key, present⟩ := mem_entries_iff.mp listed
      rw [filed.named present]
      exact present
    generalize pool.entries = entries at each
    induction entries with
    | nil => exact .nil
    | cons entry rest inductionHypothesis =>
      obtain ⟨present, later⟩ := List.forall_mem_cons.mp each
      have others := inductionHypothesis later
      cases read : RecordTypes.ofRecord entry.record with
      | ok types =>
        have readable : ¬ isUnread entry := by simp [isUnread, read, Except.toOption]
        rw [List.filter_cons_of_neg readable, List.filterMap_cons, Function.comp_apply, read]
        exact others
      | error problem =>
        have unread : isUnread entry = true := by simp [isUnread, read, Except.toOption]
        rw [List.filter_cons_of_pos unread, List.filterMap_cons, Function.comp_apply, read]
        exact .cons ⟨entry, problem, present, read, rfl⟩ others

/-- What linking makes of a pool, edges apart. -/
structure LinksTo (pool : ClassPool) (graph : ClassGraph) (diagnostics : List Diagnostic) :
    Prop where
  /-- A record whose types can be read becomes the one class of its name, with its source. -/
  resolved {name : String} {entry : PoolRecord} {types : RecordTypes}
    (present : pool.slots[name]? = some (.present entry))
    (read : RecordTypes.ofRecord entry.record = .ok types) :
    ∃ (id : ClassId) (node : ClassNode), graph.classes[id]? = some node ∧ node.name = name ∧
      node.resolution = .resolved entry.source entry.pulledIn ∧
      ∀ (other : ClassId) (otherNode : ClassNode), graph.classes[other]? = some otherNode →
        otherNode.name = name → other = id
  /-- Any other record leaves a stub of its name, if anything, -/
  stub {name : String} {entry : PoolRecord} {problem : SpellingError}
    (present : pool.slots[name]? = some (.present entry))
    (unread : RecordTypes.ofRecord entry.record = .error problem) :
    ∀ node ∈ graph.classes, node.name = name → node.resolution = .stub
  /-- and one diagnostic behind those of the pool. -/
  reported : ∃ names appended, diagnostics = pool.diagnostics ++ appended ∧ names.Nodup ∧
    (∀ name, name ∈ names ↔ ∃ diagnostic, pool.Drops name diagnostic) ∧
    List.Forall₂ pool.Drops names appended
  /-- No other class is made from a record. -/
  only {node : ClassNode} (listed : node ∈ graph.classes) (made : node.resolution ≠ .stub) :
    ∃ entry types, pool.slots[node.name]? = some (.present entry) ∧
      RecordTypes.ofRecord entry.record = .ok types
  /-- The classes are those needed. -/
  names_iff (name : String) :
    (∃ node ∈ graph.classes, node.name = name) ↔ ∃ type, pool.Needs type ∧ type.name = name

/-- Linking a completed pool, in which all records have dotted names, makes exactly the classes
that are needed, and of these it resolves exactly the ones whose records can be read. -/
theorem link_classes_exact {pool : ClassPool} (completed : pool.Completed) (dotted : pool.Dotted) :
    pool.LinksTo pool.link.1 pool.link.2 := by
  have filed := completed.filed dotted
  refine ⟨?_, ?_, ?_, ?_, fun name => filed.exists_name_iff⟩
  · intro name entry types present read
    obtain ⟨id, node, stands, named, resolved⟩ := filed.exists_resolved_of_record present read
    refine ⟨id, node, stands, named, resolved, fun other otherNode atOther sameName => ?_⟩
    exact Link.graph_name_injective atOther stands (sameName.trans named.symm)
  · intro name entry problem present unread node listed named
    by_contra made
    obtain ⟨other, types, again, read, _⟩ := filed.exists_record_of_resolved listed made
    rw [named, present] at again
    cases again
    simp [unread] at read
  · obtain ⟨names, once, exactly, each⟩ := filed.dropped
    exact ⟨names, _, rfl, once, exactly, each⟩
  · intro node listed made
    obtain ⟨entry, types, present, read, _⟩ := filed.exists_record_of_resolved listed made
    exact ⟨entry, types, present, read⟩

/-- Of three classes, each below the next, the first is imported, the second is pulled in and the
third is missing: the first two are resolved, and the third is a stub. -/
theorem link_classes_exact_chain :
    let pool := chainPool.complete chainResolver
    pool.Completed ∧ pool.Dotted ∧ pool.LinksTo pool.link.1 pool.link.2 ∧
      (pool.link.1.classes.map fun node => (node.name, node.resolution)) =
        #[("C", .resolved { uri := "memory:C", fileName := none, checksum := .disabled } false),
          ("P", .resolved { uri := "memory:P", fileName := none, checksum := .disabled } true),
          ("S", .stub)] ∧
      pool.link.2 = [] := by
  intro pool
  have completed : pool.Completed := .withResolver ((Collected.empty false).collect _) _
  have evaluated : pool = chainCompleted := complete_chainPool
  have dotted : pool.Dotted := by
    rw [evaluated]
    decide +kernel
  refine ⟨completed, dotted, link_classes_exact completed dotted, ?_⟩
  rw [evaluated]
  exact ⟨by decide +kernel, by decide +kernel⟩

end ClassPool

end ClassAtlas
