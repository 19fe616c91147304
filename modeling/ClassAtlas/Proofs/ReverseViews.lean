import ClassAtlas.Proofs.AccessTargets
import ClassAtlas.Proofs.LinkedAccesses

/-!
# Views against the direction of the edges

A graph keeps its edges with where they come from, and sorts them into buckets by where they lead:
accesses by the member and by the classes that they mean, classes by their supertypes and by the
class that encloses them. An access may count for two classes, but for none twice. So each bucket
holds exactly the edges that lead to its number, in order and once each. Subtypes are the
exception: a class that names an interface twice stands twice in its bucket.

The enclosing method of a local class leads from the class to a member, and is looked up by name
and descriptor among the members that the enclosing class lists.
-/

namespace ClassAtlas

section Buckets

variable {α β : Type} {items : List α} {keys : α → List Nat} {value : α → β} {count wanted : Nat}

/-- Entries sorted by several numbers each stand in the buckets of these. -/
theorem mem_bucket_flatMap_iff (inside : ∀ item ∈ items, ∀ key ∈ keys item, key < count)
    {found : β} :
    found ∈ (buckets count (items.flatMap fun item =>
        (keys item).map (·, value item)))[wanted]?.getD [] ↔
      ∃ item ∈ items, wanted ∈ keys item ∧ value item = found := by
  constructor
  · intro listed
    obtain ⟨item, present, made⟩ := List.mem_flatMap.mp (mem_of_mem_bucket listed)
    obtain ⟨key, isKey, same⟩ := List.mem_map.mp made
    obtain ⟨rfl, rfl⟩ := Prod.mk.inj same
    exact ⟨item, present, isKey, rfl⟩
  · rintro ⟨item, present, isKey, rfl⟩
    rw [getElem?_buckets count wanted _ (inside item present wanted isKey), Option.getD_some,
      List.mem_map]
    refine ⟨(wanted, value item), List.mem_filter.mpr ⟨?_, by simp⟩, rfl⟩
    exact List.mem_flatMap.mpr ⟨item, present, List.mem_map_of_mem isKey⟩

/-- If none has a number twice, a bucket holds the values of the entries with its number, in
order. -/
theorem bucket_flatMap (inside : ∀ item ∈ items, ∀ key ∈ keys item, key < count)
    (once : ∀ item ∈ items, (keys item).Nodup) :
    (buckets count (items.flatMap fun item => (keys item).map (·, value item)))[wanted]?.getD [] =
      (items.filter fun item => wanted ∈ keys item).map value := by
  by_cases present : wanted < count
  · rw [getElem?_buckets count wanted _ present, Option.getD_some]
    clear inside
    induction items with
    | nil => rfl
    | cons item rest inductionHypothesis =>
      obtain ⟨here, later⟩ := List.forall_mem_cons.mp once
      have own : (((keys item).map (·, value item)).filter fun entry => entry.1 = wanted).map
          Prod.snd = List.replicate ((keys item).count wanted) (value item) := by
        have selected := List.filter_eq (l := keys item) wanted
        rw [List.filter_map, List.map_map]
        simp only [Function.comp_def, selected, List.map_replicate]
      rw [List.flatMap_cons, List.filter_append, List.map_append, own, inductionHypothesis later]
      by_cases isKey : wanted ∈ keys item
      · simp [isKey, List.count_eq_one_of_mem here isKey]
      · simp [isKey, List.count_eq_zero_of_not_mem isKey]
  · rw [Array.getElem?_eq_none (by simpa using present), Option.getD_none, eq_comm,
      List.map_eq_nil_iff, List.filter_eq_nil_iff]
    exact fun item listed isKey => present (inside item listed wanted (of_decide_eq_true isKey))

/-- The same for entries with at most one number. -/
theorem bucket_filterMap {key : α → Option Nat}
    (inside : ∀ item ∈ items, ∀ number ∈ key item, number < count) :
    (buckets count (items.filterMap fun item =>
        (key item).map fun number => (number, value item)))[wanted]?.getD [] =
      (items.filter fun item => key item = some wanted).map value := by
  have entries : (items.filterMap fun item => (key item).map fun number => (number, value item)) =
      items.flatMap fun item => (key item).toList.map (·, value item) := by
    rw [List.filterMap_eq_flatMap_toList]
    exact List.flatMap_congr fun item _ => by cases key item <;> rfl
  rw [entries, bucket_flatMap]
  · simp only [Option.mem_toList]
  · simpa using inside
  · intro item _
    cases key item <;> simp

end Buckets

namespace ClassGraph

section OfParts

variable {classes : Array ClassNode} {members : Array Member} {accesses : Array AccessEdge}

/-- Under the number of a member stand the accesses that resolve to it. -/
theorem accessesToMember_ofParts
    (inside : ∀ access ∈ accesses, ∀ place ∈ access.resolved, place < members.size)
    (id : MemberId) :
    (ofParts classes members accesses).accessesToMember[id]?.getD [] =
      (accesses.toList.filter fun access => access.resolved = some id).map AccessEdge.id := by
  rw [ofParts, bucket_filterMap]
  simpa using inside

/-- An access reaches the class it names and the one that owns what it resolves to. -/
theorem mem_accessedClasses_iff {access : AccessEdge} {id : ClassId} :
    id ∈ accessedClasses members access ↔ access.owner = id ∨
      (access.resolved.bind fun place => members[place]?).map Member.owner = some id := by
  rw [accessedClasses]
  cases access.resolved.bind fun place => members[place]? with
  | none => simp [eq_comm]
  | some member =>
    by_cases same : member.owner = access.owner
    · simp [same, eq_comm]
    · simp [same, eq_comm]

/-- An access reaches no class twice. -/
theorem accessedClasses_nodup (access : AccessEdge) : (accessedClasses members access).Nodup := by
  rw [accessedClasses]
  split
  · split <;> simp_all [eq_comm]
  · simp

/-- Under the number of a class stand the accesses that reach it. -/
theorem accessesToClass_ofParts
    (inside : ∀ access ∈ accesses, ∀ id ∈ accessedClasses members access, id < classes.size)
    (id : ClassId) :
    (ofParts classes members accesses).accessesToClass[id]?.getD [] =
      (accesses.toList.filter fun access => access.owner = id ∨
        (access.resolved.bind fun place => members[place]?).map Member.owner = some id).map
          AccessEdge.id := by
  rw [ofParts, bucket_flatMap]
  · simp only [mem_accessedClasses_iff]
  · simpa using inside
  · exact fun access _ => accessedClasses_nodup access

/-- The direct subtypes of a class are those that list it among their supertypes. -/
theorem mem_directSubtypes_ofParts_iff
    (numbered : Throughout classes fun id node => node.id = id)
    (inside : ∀ node ∈ classes, ∀ parent ∈ node.supertypes, parent < classes.size)
    {id lower : ClassId} :
    lower ∈ (ofParts classes members accesses).directSubtypes id ↔
      ∃ node, classes[lower]? = some node ∧ id ∈ node.supertypes := by
  rw [directSubtypes, ofParts, mem_bucket_flatMap_iff (by simpa using inside)]
  constructor
  · rintro ⟨node, listed, above, rfl⟩
    obtain ⟨place, stands⟩ := Array.mem_iff_getElem?.mp (Array.mem_toList_iff.mp listed)
    rw [numbered place node stands]
    exact ⟨node, stands, above⟩
  · rintro ⟨node, stands, above⟩
    exact ⟨node, Array.mem_toList_iff.mpr (Array.mem_of_getElem? stands), above,
      numbered lower node stands⟩

end OfParts

end ClassGraph

namespace Link

variable {records : List TypedRecord} {missing : List String}

/-- A view of the settled part sees the classes of a graph as it sees the nodes. -/
theorem graph_classes_map {β : Type} (view : ClassNode → β)
    (settled : ∀ node : ClassNode, view node.settled = view node) :
    (graph records missing).classes.map view = (nodes records missing).map view := by
  apply Array.ext_getElem?
  intro id
  simpa only [Array.getElem?_map] using graph_view view settled id

section Views

variable (readable : ∀ typed ∈ records, typed.types.Readable)

/-- Accesses that are selected are found again by their numbers. -/
theorem graph_accessesAt_filter (selected : AccessEdge → Bool) :
    (graph records missing).accessesAt
      (((graph records missing).accesses.toList.filter selected).map AccessEdge.id) =
        (graph records missing).accesses.toList.filter selected :=
  graph_accessesAt_map_id fun _ listed => Array.mem_toList_iff.mp (List.mem_filter.mp listed).1

include readable

/-- In the linked graph the accesses to a member are those that resolve to it, in order. -/
theorem graph_accessesToMemberId (place : MemberId) :
    (graph records missing).accessesToMemberId place =
      (graph records missing).accesses.toList.filter fun access =>
        access.resolved = some place := by
  have bucket := @ClassGraph.accessesToMember_ofParts (graph records missing).classes
    (graph records missing).members (graph records missing).accesses ?_ place
  · rw [ClassGraph.accessesToMemberId, ← graph_accessesAt_filter, ← bucket]
    rfl
  intro access listed member resolved
  obtain ⟨id, stands⟩ := Array.mem_iff_getElem?.mp listed
  exact ((graph_wellFormed readable).accesses id access stands).resolved member resolved

/-- In the linked graph the accesses to a class are those that reach it, in order. -/
theorem graph_accessesToClassId (id : ClassId) :
    (graph records missing).accessesToClassId id =
      (graph records missing).accesses.toList.filter fun access => access.owner = id ∨
        (access.resolved.bind fun place => (graph records missing).members[place]?).map
          Member.owner = some id := by
  have wellFormed := @graph_wellFormed records missing readable
  have bucket := @ClassGraph.accessesToClass_ofParts (graph records missing).classes
    (graph records missing).members (graph records missing).accesses ?_ id
  · rw [ClassGraph.accessesToClassId, ← graph_accessesAt_filter, ← bucket]
    rfl
  intro access listed named isNamed
  obtain ⟨number, stands⟩ := Array.mem_iff_getElem?.mp listed
  rcases ClassGraph.mem_accessedClasses_iff.mp isNamed with rfl | owns
  · exact (wellFormed.accesses number access stands).owner
  · obtain ⟨member, found, rfl⟩ := Option.map_eq_some_iff.mp owns
    obtain ⟨place, _, atPlace⟩ := Option.bind_eq_some_iff.mp found
    exact (wellFormed.members place member atPlace).owner

/-- In the linked graph the direct subtypes of a class are those that extend or implement it. -/
theorem mem_graph_directSubtypes_iff {id lower : ClassId} :
    lower ∈ (graph records missing).directSubtypes id ↔ ∃ node,
      (graph records missing).classes[lower]? = some node ∧
        (node.superclass = some id ∨ id ∈ node.interfaces) := by
  have within := (@graph_wellFormed records missing readable).classes
  have below := @ClassGraph.mem_directSubtypes_ofParts_iff (graph records missing).classes
    (graph records missing).members (graph records missing).accesses
    (fun id node stands => (within id node stands).id) ?_ id lower
  · simp only [ClassNode.supertypes, List.mem_append, Option.mem_toList] at below
    exact below
  intro node listed parent above
  obtain ⟨number, stands⟩ := Array.mem_iff_getElem?.mp listed
  rcases List.mem_append.mp above with superclass | interface
  · exact (within number node stands).superclass parent (Option.mem_toList.mp superclass)
  · exact (within number node stands).interfaces parent interface

end Views

/-- Filling in nested classes lists the classes that are enclosed, in order. -/
theorem nestedClasses_withNestedClasses {classes : Array ClassNode} {memberCount : Nat}
    (within : Throughout classes (ClassNode.Within classes.size memberCount)) :
    Throughout (withNestedClasses classes) fun id node => node.nestedClasses =
      (classes.toList.filter fun inner => inner.enclosingClass = some id).map ClassNode.id := by
  refine Throughout.map within _ fun id node _ inBounds => ?_
  dsimp only
  rw [inBounds.id]
  refine bucket_filterMap fun inner listed outer encloses => ?_
  obtain ⟨place, stands⟩ := Array.mem_iff_getElem?.mp (Array.mem_toList_iff.mp listed)
  exact (within place inner stands).enclosingClass outer encloses

/-- The classes nested in a class are those that it encloses, in order. -/
theorem graph_nestedClasses (readable : ∀ typed ∈ records, typed.types.Readable) :
    Throughout (graph records missing).classes fun id node => node.nestedClasses =
      ((graph records missing).classes.toList.filter
        fun inner => inner.enclosingClass = some id).map ClassNode.id := by
  intro id node stands
  have kept : (graph records missing).classes.map ClassNode.nestedClasses =
      (withNestedClasses (nodes records missing)).map ClassNode.nestedClasses := by
    rw [graph_classes, withTypeReferences_view _ _ _ _ fun _ _ => rfl,
      withEnclosingMethods_view _ _ _ _ fun _ _ => rfl]
  have seen := congrArg (·[id]?) kept
  simp only [Array.getElem?_map, stands, Option.map_some] at seen
  obtain ⟨filled, atId, same⟩ := Option.map_eq_some_iff.mp seen.symm
  -- The enclosing classes are the same at the end as when the nested ones were filled in.
  have view := congrArg Array.toList (@graph_classes_map records missing _
    (fun node => (node.enclosingClass, node.id)) fun _ => rfl)
  simp only [Array.toList_map] at view
  have selected := congrArg (fun rows => (rows.filter fun row => row.1 = some id).map Prod.snd) view
  simp only [List.filter_map, List.map_map] at selected
  have within := @nodes_within records missing readable
  rw [← @size_nodes records missing] at within
  rw [← same, nestedClasses_withNestedClasses within id filled atId]
  exact selected.symm

/-- The enclosing method of a class was found for the record of a local class. -/
theorem graph_enclosingMethod : Throughout (graph records missing).classes fun id node =>
    ∀ method ∈ node.enclosingMethod, ∃ typed declarations,
      (typed, declarations) ∈ rows records missing ∧ declarations.owner = id ∧
      typed.entry.record.nesting.isLocal = true ∧ ∃ outer ∈ node.enclosingClass,
        method = enclosingMethod (withNestedClasses (nodes records missing))
          (allMembers records missing) typed.entry.record.nesting outer := by
  have start : Throughout (withNestedClasses (nodes records missing)) fun _ node =>
      node.enclosingMethod = none := by
    have declared : Throughout (declaredNodes (number records missing) (rows records missing))
        fun _ node => node.enclosingMethod = none :=
      declaredNodes_throughout (fun _ _ _ => rfl) fun _ _ _ _ unset => unset
    exact (declared.map _ fun _ _ _ unset => unset).map _ fun _ _ _ unset => unset
  rw [graph_classes]
  refine Throughout.foldl (Throughout.foldl ?_ ?_) ?_
  · intro id node stands method found
    simp [start id node stands] at found
  · rintro ⟨typed, declarations⟩ row filled kept
    dsimp only
    split
    · rename_i isLocal
      refine kept.modify _ _ fun node _ method found => ?_
      obtain ⟨outer, encloses, rfl⟩ := Option.map_eq_some_iff.mp found
      exact ⟨typed, declarations, row, rfl, isLocal, outer, encloses, rfl⟩
    · exact kept
  · rintro ⟨typed, declarations⟩ row filled kept
    exact kept.modify _ _ fun node inNode => inNode

/-- The node of a local class has an enclosing method if it has an enclosing class. -/
theorem graph_enclosingMethod_isSome {typed : TypedRecord} (listed : typed ∈ records)
    (isLocal : typed.entry.record.nesting.isLocal = true) {node : ClassNode}
    (stands : (graph records missing).classes[(number records missing).id typed.types.this]? =
      some node) : node.enclosingMethod.isSome = node.enclosingClass.isSome := by
  obtain ⟨declarations, row⟩ := @exists_row records missing typed listed
  obtain ⟨_, start, rfl⟩ := mem_rows row
  obtain ⟨before, after, split⟩ := List.append_of_mem row
  have each : Throughout (graph records missing).classes fun id node =>
      id = (number records missing).id typed.types.this →
        node.enclosingMethod.isSome = node.enclosingClass.isSome := by
    rw [graph_classes]
    refine Throughout.foldl ?_ ?_
    · rw [split, withEnclosingMethods, List.foldl_append, List.foldl_cons]
      refine Throughout.foldl ?_ ?_
      · intro id node stands isOwner
        subst isOwner
        simp only [Declarations.ofTyped, isLocal, if_true, Array.getElem?_modify,
          Option.map_eq_some_iff] at stands
        obtain ⟨_, _, rfl⟩ := stands
        simp
      · rintro ⟨other, others⟩ _ filled kept
        dsimp only
        split
        · exact kept.modify _ _ fun node _ _ => by simp
        · exact kept
    · rintro ⟨other, others⟩ _ filled kept
      exact kept.modify _ _ fun node inNode => inNode
  exact each _ node stands rfl

end Link

/-- The member is no field and has the name and the descriptor that were recorded. -/
def MethodRef.Matches (method : MethodRef) (member : Member) : Prop :=
  member.kind ≠ .field ∧ method.name = some member.name ∧
    method.descriptor = some member.descriptor

namespace Link

section Enclosing

variable {classes : Array ClassNode} {members : Array Member} {nesting : Nesting} {outer : ClassId}

/-- An enclosing method is found by name and descriptor, and is no field. -/
theorem matches_enclosingMethod_iff {member : Member} :
    (enclosingMethod classes members nesting outer).Matches member ↔
      nesting.enclosingMethod = some (member.name, member.descriptor) ∧ member.kind ≠ .field := by
  simp only [MethodRef.Matches, enclosingMethod]
  cases nesting.enclosingMethod with
  | none => simp
  | some recorded =>
    obtain ⟨name, descriptor⟩ := recorded
    simp [and_comm]

/-- What is found is a member that the enclosing class lists and that matches. -/
theorem exists_of_mem_resolved (numbered : Throughout members fun place member => member.id = place)
    {place : MemberId} (found : place ∈ (enclosingMethod classes members nesting outer).resolved) :
    ∃ owner member, classes[outer]? = some owner ∧ place ∈ owner.members ∧
      members[place]? = some member ∧
      (enclosingMethod classes members nesting outer).Matches member := by
  simp only [enclosingMethod, Option.mem_def, Option.bind_eq_some_iff] at found
  obtain ⟨⟨name, descriptor⟩, recorded, chosen⟩ := found
  obtain ⟨member, isFirst, rfl⟩ := Option.map_eq_some_iff.mp chosen
  obtain ⟨number, listed, stands⟩ := List.mem_filterMap.mp (List.mem_of_find?_eq_some isFirst)
  have fits := List.find?_some isFirst
  simp only [Bool.and_eq_true, bne_iff_ne, ne_eq, decide_eq_true_eq] at fits
  cases atOuter : classes[outer]? with
  | none => simp [atOuter] at listed
  | some owner =>
    rw [atOuter, Option.map_some, Option.getD_some] at listed
    rw [numbered number member stands]
    refine ⟨owner, member, rfl, listed, stands, matches_enclosingMethod_iff.mpr ⟨?_, fits.1.1⟩⟩
    rw [recorded, fits.1.2, fits.2]

/-- If nothing is found, the enclosing class lists no member that matches. -/
theorem not_matches_of_resolved_eq_none
    (unresolved : (enclosingMethod classes members nesting outer).resolved = none)
    {owner : ClassNode} (atOuter : classes[outer]? = some owner) {place : MemberId}
    (listed : place ∈ owner.members) {member : Member} (stands : members[place]? = some member) :
    ¬ (enclosingMethod classes members nesting outer).Matches member := by
  intro isMatch
  obtain ⟨recorded, isMethod⟩ := matches_enclosingMethod_iff.mp isMatch
  simp only [enclosingMethod, recorded, Option.bind_some, Option.map_eq_none_iff,
    List.find?_eq_none, atOuter, Option.map_some, Option.getD_some] at unresolved
  have none := unresolved member (List.mem_filterMap.mpr ⟨place, listed, stands⟩)
  simp [isMethod] at none

end Enclosing

end Link

/-- The method is the one that a class is nested in by its record: a member of the enclosing class
with the recorded name and descriptor, if that class lists one. -/
structure MethodRef.Encloses (graph : ClassGraph) (nesting : Nesting) (node : ClassNode)
    (method : MethodRef) : Prop where
  owner : node.enclosingClass = some method.owner
  name : method.name = nesting.enclosingMethod.map Prod.fst
  descriptor : method.descriptor = nesting.enclosingMethod.map Prod.snd
  resolved : ∀ place ∈ method.resolved, ∃ owner member,
    graph.classes[method.owner]? = some owner ∧ place ∈ owner.members ∧
    graph.members[place]? = some member ∧ member.owner = method.owner ∧ method.Matches member
  unresolved : method.resolved = none → ∀ owner, graph.classes[method.owner]? = some owner →
    ∀ place ∈ owner.members, ∀ member, graph.members[place]? = some member →
      ¬ method.Matches member

namespace Link

variable {records : List TypedRecord} {missing : List String}

/-- The classes list the same members at the end as when enclosing methods were looked for. -/
theorem exists_nested_of_graph {id : ClassId} {members : List MemberId} :
    (∃ node, (graph records missing).classes[id]? = some node ∧ node.members = members) ↔
      ∃ node, (withNestedClasses (nodes records missing))[id]? = some node ∧
        node.members = members := by
  have same := @graph_view records missing _ ClassNode.members (fun _ => rfl) id
  have nested : (withNestedClasses (nodes records missing))[id]?.map ClassNode.members =
      (nodes records missing)[id]?.map ClassNode.members := by
    rw [withNestedClasses, Array.getElem?_map, Option.map_map]
    rfl
  rw [← Option.map_eq_some_iff, ← Option.map_eq_some_iff, same, nested]

/-- What is found for a local class encloses it in the graph. -/
theorem enclosingMethod_encloses {nesting : Nesting} {node : ClassNode} {outer : ClassId}
    (encloses : node.enclosingClass = some outer) :
    (enclosingMethod (withNestedClasses (nodes records missing)) (allMembers records missing)
      nesting outer).Encloses (graph records missing) nesting node where
  owner := encloses
  name := rfl
  descriptor := rfl
  resolved := by
    intro place found
    obtain ⟨outgoing, same⟩ := @graph_members_map records missing
    obtain ⟨owner, member, atOuter, listed, stands, isMatch⟩ :=
      exists_of_mem_resolved (fun _ _ => id_of_getElem?_allMembers) found
    obtain ⟨inGraph, atGraph, sameMembers⟩ := exists_nested_of_graph.mpr ⟨owner, atOuter, rfl⟩
    rw [← sameMembers] at listed
    have atPlace : (graph records missing).members[place]? =
        some { member with accesses := outgoing member } := by
      rw [same, Array.getElem?_map, stands, Option.map_some]
    exact ⟨inGraph, _, atGraph, listed, atPlace,
      owner_of_mem_graph_members atGraph listed atPlace, isMatch⟩
  unresolved := by
    intro unresolved owner stands place listed member atPlace
    obtain ⟨outgoing, same⟩ := @graph_members_map records missing
    rw [same, Array.getElem?_map, Option.map_eq_some_iff] at atPlace
    obtain ⟨declared, atNumber, rfl⟩ := atPlace
    obtain ⟨before, atOuter, sameMembers⟩ := exists_nested_of_graph.mp ⟨owner, stands, rfl⟩
    have noMatch := not_matches_of_resolved_eq_none unresolved atOuter (sameMembers ▸ listed)
      atNumber
    exact noMatch

end Link

/-- The record declares the class of a name. -/
def ClassRecord.Declares (record : ClassRecord) (name : String) : Prop :=
  ∃ type, TypeName.ofDeclaredName record.name = .ok type ∧ type.name = name

/-- The views of a graph against the direction of its edges are exactly these. -/
structure ClassGraph.ViewsExact (graph : ClassGraph) (pool : ClassPool) : Prop where
  classNumbers : Throughout graph.classes fun id node => node.id = id
  accessNumbers : Throughout graph.accesses fun id access => access.id = id
  toMember : ∀ place, graph.accessesToMemberId place =
    graph.accesses.toList.filter fun access => access.resolved = some place
  toClass : ∀ id, graph.accessesToClassId id = graph.accesses.toList.filter fun access =>
    access.owner = id ∨
      (access.resolved.bind fun place => graph.members[place]?).map Member.owner = some id
  subtypes : ∀ id lower, lower ∈ graph.directSubtypes id ↔ ∃ node,
    graph.classes[lower]? = some node ∧ (node.superclass = some id ∨ id ∈ node.interfaces)
  nested : Throughout graph.classes fun id node => node.nestedClasses =
    (graph.classes.toList.filter fun inner => inner.enclosingClass = some id).map ClassNode.id
  enclosing : Throughout graph.classes fun _ node => ∀ method ∈ node.enclosingMethod,
    ∃ record ∈ pool.readableRecords, record.Declares node.name ∧ record.nesting.isLocal = true ∧
      method.Encloses graph record.nesting node
  enclosed : ∀ record ∈ pool.readableRecords, record.nesting.isLocal = true →
    ∀ node ∈ graph.classes, record.Declares node.name →
      node.enclosingMethod.isSome = node.enclosingClass.isSome

namespace ClassPool

/-- The readable records are those that have been typed. -/
theorem mem_readableRecords_iff {pool : ClassPool} {record : ClassRecord} :
    record ∈ pool.readableRecords ↔ ∃ typed ∈ pool.typedRecords, typed.entry.record = record := by
  rw [readableRecords_eq, List.mem_map]

/-- The class that a typed record declares is the one at its number. -/
theorem declares_iff {pool : ClassPool} {typed : TypedRecord}
    (isTyped : typed ∈ pool.typedRecords) {id : ClassId} {node : ClassNode}
    (stands : pool.link.1.classes[id]? = some node) :
    typed.entry.record.Declares node.name ↔
      (Link.number pool.typedRecords pool.missingNames).id typed.types.this = id := by
  have names := Link.graph_names
    (@Link.id?_this _ pool.missingNames readable_of_mem_typedRecords _ isTyped) id
  have read := (readFrom_of_mem_typedRecords isTyped).this
  rw [eq_comm, ← names, ← link_graph, stands, Option.map_some, Option.some.injEq]
  constructor
  · rintro ⟨type, readAgain, named⟩
    cases readAgain.symm.trans read
    exact named.symm
  · exact fun named => ⟨_, read, named.symm⟩

/-- In the graph of any pool the views are exact: each lists what leads to its number, and the
method recorded for a local class is found in the enclosing class wherever that lists it. -/
theorem link_views_exact (pool : ClassPool) : pool.link.1.ViewsExact pool := by
  have wellFormed := @Link.graph_wellFormed _ pool.missingNames
    (@readable_of_mem_typedRecords pool)
  rw [← link_graph] at wellFormed
  exact {
    classNumbers := fun id node stands => (wellFormed.classes id node stands).id
    accessNumbers := fun id access stands => (wellFormed.accesses id access stands).id
    toMember := Link.graph_accessesToMemberId readable_of_mem_typedRecords
    toClass := Link.graph_accessesToClassId readable_of_mem_typedRecords
    subtypes := fun id lower => Link.mem_graph_directSubtypes_iff readable_of_mem_typedRecords
    nested := Link.graph_nestedClasses readable_of_mem_typedRecords
    enclosing := by
      intro id node stands method found
      obtain ⟨typed, declarations, row, isOwner, isLocal, outer, encloses, rfl⟩ :=
        Link.graph_enclosingMethod id node stands method found
      have isTyped := (Link.mem_rows row).1
      refine ⟨typed.entry.record, mem_readableRecords_iff.mpr ⟨typed, isTyped, rfl⟩, ?_, isLocal,
        Link.enclosingMethod_encloses encloses⟩
      rw [declares_iff isTyped stands, ← isOwner]
      obtain ⟨_, _, rfl⟩ := Link.mem_rows row
      rfl
    enclosed := by
      intro record readable isLocal node listed declares
      obtain ⟨typed, isTyped, rfl⟩ := mem_readableRecords_iff.mp readable
      obtain ⟨id, stands⟩ := Array.mem_iff_getElem?.mp listed
      obtain rfl := (declares_iff isTyped stands).mp declares
      exact Link.graph_enclosingMethod_isSome isTyped isLocal stands }

end ClassPool

end ClassAtlas
