import ClassAtlas.Predicate
import ClassAtlas.Proofs.AccessTargets
import ClassAtlas.Proofs.TypeIdentity

/-!
# Looking classes up by name

A class is looked up under a text in two ways: first the text is taken for the name itself, and
then for a spelling of it. Both lead to the class whose name the text spells, because the name of
every class in a linked graph is read as a type of that name. This is so even for a class that is
named like a primitive type. Its name is read as the primitive type, which is no class, but the
names agree; only the source name of an array of such a class leads elsewhere.

So it does no harm either that the name in a predicate is brought into its normal form before the
lookup reads it once more.
-/

namespace ClassAtlas

open Relation

namespace TypeName

/-- The name of a regular type has no slash. -/
theorem Regular.dotted_name {type : TypeName} (regular : type.Regular) :
    '/' ∉ type.name.toList := by
  cases type with
  | primitive kind => cases kind <;> decide
  | object name => exact regular.dotted
  | array component =>
    rw [name, String.toList_ofList]
    exact regular.not_mem_elementLetters.1

/-- A class is read from every text that respells its name, unless the text is a keyword. -/
theorem ofClassName_object_of_respell {name raw : String} (proper : Proper name)
    (noKeyword : Primitive.ofKeyword? raw = none)
    (same : Name.respell '/' '.' raw.toList = name.toList) :
    ofClassName raw = .ok (object name) := by
  have plain : ∀ letter ∈ raw.toList, letter ∉ punctuation := by
    intro letter listed isPunctuation
    have notSlash : letter ≠ '/' := by
      rintro rfl
      simp [punctuation] at isPunctuation
    exact proper.plain letter (same ▸ Name.mem_respell_of_mem listed notSlash) isPunctuation
  obtain ⟨first, rest, starts⟩ : ∃ first rest, raw.toList = first :: rest := by
    apply List.exists_cons_of_ne_nil
    intro isEmpty
    exact proper.nonempty (by rw [← same, isEmpty]; rfl)
  have notOpening : first ≠ '[' := by
    rintro rfl
    exact plain '[' (starts ▸ List.mem_cons_self) (by decide)
  rw [ofClassName, noKeyword]
  dsimp only
  rw [ofForm_of_plain starts notOpening fun listed => plain ']' listed (by decide)]
  exact ofObjectName_of_respell proper same

/-- Every text that respells the name of a type is read as a type of that name. -/
theorem Regular.exists_ofClassName_of_respell {type : TypeName} (regular : type.Regular)
    {raw : String} (same : Name.respell '/' '.' raw.toList = type.name.toList) :
    ∃ read, ofClassName raw = .ok read ∧ read.name = type.name := by
  cases keyword : Primitive.ofKeyword? raw with
  | some kind =>
    -- A keyword has no slash, so the text is the name.
    have isKeyword := Primitive.ofKeyword?_eq_some_iff.mp keyword
    have dotted : '/' ∉ raw.toList := by
      rw [← isKeyword]
      cases kind <;> decide
    rw [respell_of_dotted dotted, String.toList_inj] at same
    exact ⟨primitive kind, by rw [ofClassName, keyword], isKeyword.trans same⟩
  | none =>
    cases type with
    | primitive kind =>
      have noDot : '.' ∉ kind.keyword.toList := by cases kind <;> decide
      have isKeyword := String.toList_inj.mp (Name.eq_of_respell_eq same noDot)
      rw [isKeyword, name, Primitive.ofKeyword?_eq_some_iff.mpr rfl] at keyword
      cases keyword
    | object name => exact ⟨_, ofClassName_object_of_respell regular keyword same, rfl⟩
    | array component =>
      rw [name, String.toList_ofList] at same
      exact ⟨_, ofClassName_array_of_respell regular same, rfl⟩

/-- A name is read as a type of that name. -/
theorem Regular.exists_ofClassName_name {type : TypeName} (regular : type.Regular) :
    ∃ read, ofClassName type.name = .ok read ∧ read.name = type.name :=
  regular.exists_ofClassName_of_respell (respell_of_dotted regular.dotted_name)

end TypeName

/-! ## Names in a graph -/

/-- A table of names that was filled from nodes with different names has the number of each under
its name, and nothing else. -/
theorem ClassGraph.getElem?_names_iff {nodes : List ClassNode}
    (distinct : (nodes.map ClassNode.name).Nodup) {name : String} {id : ClassId} :
    (nodes.foldl (fun known node => known.insert node.name node.id)
        (∅ : Std.TreeMap String ClassId compare))[name]? = some id ↔
      ∃ node ∈ nodes, node.name = name ∧ node.id = id := by
  induction nodes using List.reverseRecOn with
  | nil => simp
  | append_singleton nodes last inductionHypothesis =>
    rw [List.map_append, List.nodup_append] at distinct
    obtain ⟨distinct, _, apart⟩ := distinct
    rw [List.foldl_append, List.foldl_cons, List.foldl_nil, Std.TreeMap.getElem?_insert]
    by_cases same : last.name = name
    · -- The last node is the only one of its name.
      rw [if_pos (Std.compare_eq_iff_eq.mpr same), Option.some.injEq]
      constructor
      · rintro rfl
        exact ⟨last, by simp, same, rfl⟩
      · rintro ⟨node, listed, named, rfl⟩
        rcases List.mem_append.mp listed with earlier | isLast
        · exact absurd (named.trans same.symm)
            (apart _ (List.mem_map_of_mem earlier) _ (by simp))
        · rw [List.mem_singleton.mp isLast]
    · rw [if_neg (mt Std.compare_eq_iff_eq.mp same), inductionHypothesis distinct]
      simp [same]

namespace ClassPool

variable {pool : ClassPool} {text : String} {node : ClassNode}

/-- The names of a linked graph lead to its classes. -/
theorem link_byName_iff {name : String} {id : ClassId} :
    pool.link.1.byName[name]? = some id ↔
      ∃ node, pool.link.1.classes[id]? = some node ∧ node.name = name := by
  have wellFormed : pool.link.1.WellFormed := Link.graph_wellFormed readable_of_mem_typedRecords
  have names : pool.link.1.byName = pool.link.1.classes.foldl
      (fun known node => known.insert node.name node.id) ∅ := rfl
  rw [names, ← Array.foldl_toList, ClassGraph.getElem?_names_iff wellFormed.names]
  constructor
  · rintro ⟨node, listed, named, rfl⟩
    obtain ⟨place, stands⟩ := Array.mem_iff_getElem?.mp (Array.mem_toList_iff.mp listed)
    exact ⟨node, (wellFormed.classes place node stands).id ▸ stands, named⟩
  · rintro ⟨node, stands, named⟩
    exact ⟨node, Array.mem_toList_iff.mpr (Array.mem_of_getElem? stands), named,
      (wellFormed.classes id node stands).id⟩

/-- The index of names leads to the class of a name, if there is one. -/
theorem link_byName_bind_eq_some_iff {name : String} :
    (pool.link.1.byName[name]?.bind fun id => pool.link.1.classes[id]?) = some node ↔
      node ∈ pool.link.1.classes ∧ node.name = name := by
  rw [Option.bind_eq_some_iff, Array.mem_iff_getElem?]
  constructor
  · rintro ⟨id, found, stands⟩
    obtain ⟨same, atId, named⟩ := link_byName_iff.mp found
    rw [stands, Option.some.injEq] at atId
    exact ⟨⟨id, stands⟩, atId ▸ named⟩
  · rintro ⟨⟨id, stands⟩, named⟩
    exact ⟨id, link_byName_iff.mpr ⟨node, stands, named⟩, stands⟩

/-- Under a text there is the class whose name the text spells. -/
theorem link_find?_eq_some_iff : pool.link.1.find? text = some node ↔
    node ∈ pool.link.1.classes ∧
      ∃ type, TypeName.ofClassName text = .ok type ∧ node.name = type.name := by
  rw [ClassGraph.find?]
  split
  · -- The text is itself the name of a class, which is read as a type of that name.
    rename_i id found
    obtain ⟨direct, stands, rfl⟩ := link_byName_iff.mp found
    obtain ⟨read, isRead, sameName⟩ :=
      (regular_of_mem_classes (Array.mem_of_getElem? stands)).exists_ofClassName_name
    have byName := @link_byName_bind_eq_some_iff pool node direct.name
    rw [found, Option.bind_some] at byName
    rw [byName]
    refine and_congr_right fun _ => ⟨fun named => ⟨read, isRead, named.trans sameName.symm⟩, ?_⟩
    rintro ⟨type, typeRead, named⟩
    have same : type = read := Except.ok.inj (typeRead.symm.trans isRead)
    rw [named, same]
    exact sameName
  · split
    · rename_i type typeRead
      rw [link_byName_bind_eq_some_iff, typeRead]
      simp
    · rename_i problem unread
      simp [unread]

/-- A class is found under every text that is read as a type of its name. -/
theorem link_find?_of_mem (listed : node ∈ pool.link.1.classes) {type : TypeName}
    (read : TypeName.ofClassName text = .ok type) (named : type.name = node.name) :
    pool.link.1.find? text = some node :=
  link_find?_eq_some_iff.mpr ⟨listed, type, read, named.symm⟩

/-- Bringing a name into its normal form does not change what is found. -/
theorem link_find?_normalName (text : String) :
    pool.link.1.find? (Predicate.normalName text) = pool.link.1.find? text := by
  rw [Predicate.normalName]
  split
  · rename_i type read
    obtain ⟨again, readAgain, sameName⟩ :=
      (TypeName.regular_of_ofClassName read).exists_ofClassName_name
    ext node
    rw [link_find?_eq_some_iff, link_find?_eq_some_iff, read, readAgain]
    simp [sameName]
  · rfl

/-- A class and its ancestors are what steps up lead to, in none or more. -/
theorem link_reaches_iff (listed : node ∈ pool.link.1.classes) {upper : ClassId} :
    node.id = upper ∨ upper ∈ node.ancestors ↔
      ReflTransGen (Hierarchy.Extends pool.link.1.classes) node.id upper := by
  have readable := @readable_of_mem_typedRecords pool
  obtain ⟨id, stands⟩ := Array.mem_iff_getElem?.mp listed
  rw [link_graph] at stands ⊢
  have numbered : node.id = id := ((Link.graph_wellFormed readable).classes id node stands).id
  rw [reflTransGen_iff_eq_or_transGen, numbered, Link.graph_ancestors readable stands,
    Hierarchy.mem_ancestors_iff (Link.graph_closed readable)
      (Array.getElem?_eq_some_iff.mp stands).1, eq_comm]
  by_cases same : upper = id
  · simp [same]
  · simp [same]

/-- A class is assignable to a name exactly if the class found under it is reached through
supertypes. -/
theorem link_isAssignableTo_iff (listed : node ∈ pool.link.1.classes) :
    pool.link.1.isAssignableTo node text = true ↔
      ∃ target, pool.link.1.find? text = some target ∧
        ReflTransGen (Hierarchy.Extends pool.link.1.classes) node.id target.id := by
  rw [ClassGraph.isAssignableTo]
  cases found : pool.link.1.find? text with
  | none => simp
  | some target => simp [← link_reaches_iff listed]

/-- In the graph of any pool, the class found under a text is the one whose name the text spells as
a class name; so nothing is found under a text that is no class name. Every class is found under its
name, with dots or slashes, and under its source name, unless its element is a class that is named
like a primitive type. The predicate of a supertype selects the classes from which steps up lead to
the class that is found. -/
theorem link_finds_named (pool : ClassPool) :
    (∀ (text : String) (node : ClassNode), pool.link.1.find? text = some node ↔
      node ∈ pool.link.1.classes ∧
        ∃ type, TypeName.ofClassName text = .ok type ∧ node.name = type.name) ∧
    (∀ (text : String) (problem : SpellingError), TypeName.ofClassName text = .error problem →
      pool.link.1.find? text = none) ∧
    (∀ node ∈ pool.link.1.classes, pool.link.1.find? node.name = some node ∧
      pool.link.1.find? (Name.slashed node.name) = some node ∧
      ((∀ kind : Primitive, node.type.base ≠ .object kind.keyword) →
        pool.link.1.find? node.type.canonical = some node)) ∧
    ∀ (text : String) (node : ClassNode),
      node ∈ Predicate.select pool.link.1 (.ofSupertype text) ↔
        node ∈ pool.link.1.classes ∧ ∃ target, pool.link.1.find? text = some target ∧
          ReflTransGen (Hierarchy.Extends pool.link.1.classes) node.id target.id := by
  refine ⟨fun text node => link_find?_eq_some_iff, ?_, ?_, ?_⟩
  · intro text problem unread
    rw [Option.eq_none_iff_forall_ne_some]
    intro node found
    obtain ⟨_, type, read, _⟩ := link_find?_eq_some_iff.mp found
    rw [unread] at read
    cases read
  · intro node listed
    have regular := regular_of_mem_classes listed
    have slashed : Name.respell '/' '.' (Name.slashed node.name).toList = node.name.toList := by
      rw [Name.slashed, String.toList_ofList]
      exact Name.respell_respell regular.dotted_name
    obtain ⟨_, read, named⟩ := regular.exists_ofClassName_name
    obtain ⟨_, readSlashed, namedSlashed⟩ := regular.exists_ofClassName_of_respell slashed
    refine ⟨link_find?_of_mem listed read named, link_find?_of_mem listed readSlashed namedSlashed,
      fun unambiguous => ?_⟩
    exact link_find?_of_mem listed (TypeName.ofClassName_canonical regular unambiguous) rfl
  · intro text node
    rw [Predicate.select, List.mem_filter, Array.mem_toList_iff]
    refine and_congr_right fun listed => ?_
    rw [Predicate.ofSupertype, Predicate.test, link_isAssignableTo_iff listed,
      link_find?_normalName]

/-- A class with a method that takes an array of it. -/
def arrayPool : ClassPool :=
  samplePool [sampleClass "a.C" 0x0021 [] [sampleMethod "m" "([La/C;)V" 0x0001 []]]

/-- The array is found under all its names, and is its own subtype. -/
theorem link_finds_named_array :
    ∃ node ∈ arrayPool.link.1.classes, node.name = "[La.C;" ∧
      arrayPool.link.1.find? "[La.C;" = some node ∧
      arrayPool.link.1.find? "[La/C;" = some node ∧
      arrayPool.link.1.find? "a.C[]" = some node ∧
      arrayPool.link.1.find? "a.C[" = none ∧
      node ∈ Predicate.select arrayPool.link.1 (.ofSupertype "a/C[]") := by
  have interned : Link.interned arrayPool.typedRecords arrayPool.missingNames =
      [.object "a.C", .primitive .void, .array (.object "a.C")] := by decide +kernel
  obtain ⟨id, _, stands⟩ := @exists_id?_of_interned arrayPool (.array (.object "a.C")) _
    (by simp [interned]) (TypeName.mem_numbered_self rfl)
  obtain ⟨node, atId, isArray⟩ := Option.map_eq_some_iff.mp stands
  have listed := Array.mem_of_getElem? atId
  have named : node.name = "[La.C;" := congrArg TypeName.name isArray
  have unambiguous (kind : Primitive) : node.type.base ≠ .object kind.keyword := by
    rw [isArray]
    cases kind <;> decide
  obtain ⟨found_iff, unread, found, selects⟩ := link_finds_named arrayPool
  obtain ⟨byName, bySlashes, bySource⟩ := found node listed
  have spelled : arrayPool.link.1.find? "a/C[]" = some node :=
    (found_iff _ _).mpr ⟨listed, .array (.object "a.C"), rfl, named⟩
  rw [named] at byName bySlashes
  refine ⟨node, listed, named, byName, bySlashes, ?_, unread "a.C[" _ rfl, ?_⟩
  · have source := bySource unambiguous
    rwa [isArray] at source
  · exact (selects _ _).mpr ⟨listed, node, spelled, .refl⟩

end ClassPool

end ClassAtlas
