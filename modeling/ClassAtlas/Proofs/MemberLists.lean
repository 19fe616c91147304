import ClassAtlas.Proofs.AccessTargets
import ClassAtlas.Proofs.DeclaredNodes
import ClassAtlas.Proofs.LinkedAccesses

/-!
# The members that classes list

All members stand in one list, and each class keeps the numbers of its own, sorted by kind. Fields,
constructors and methods are all kept. Of static initializers a class keeps one: where its record
declares several, the last takes the place of those before it. An initializer that is displaced in
this way is still a member and still names its class, but no class leads to it, and what its body
accesses is not among the accesses of any class.

Apart from this the lists are complete: taken together, the classes list every member once, each
class its own, and so lead to every access once.
-/

namespace ClassAtlas

/-- In ascending order, the last is the greatest. -/
theorem mem_getLast?_iff_of_pairwise {numbers : List Nat} (ascending : numbers.Pairwise (· < ·))
    {number : Nat} :
    number ∈ numbers.getLast? ↔ number ∈ numbers ∧ ∀ other ∈ numbers, other ≤ number := by
  rcases List.eq_nil_or_concat numbers with rfl | ⟨before, last, rfl⟩
  · simp
  · rw [List.concat_eq_append, List.pairwise_append] at ascending
    have below : ∀ other ∈ before, other < last := fun other inside =>
      ascending.2.2 other inside last (List.mem_singleton_self last)
    simp only [List.concat_eq_append, List.getLast?_concat, Option.mem_some_iff, List.mem_append,
      List.mem_singleton]
    constructor
    · rintro rfl
      exact ⟨Or.inr rfl, fun other inside => inside.elim (fun early => (below other early).le)
        Nat.le_of_eq⟩
    · rintro ⟨inside | rfl, greatest⟩
      · exact absurd (greatest last (Or.inr rfl)) (Nat.not_le.mpr (below number inside))
      · rfl

/-- Items taken key by key are the items with one of the keys. -/
theorem flatMap_filter_perm {α κ : Type} [DecidableEq κ] (key : α → κ) (items : List α)
    {keys : List κ} (distinct : keys.Nodup) :
    (keys.flatMap fun wanted => items.filter fun item => key item = wanted).Perm
      (items.filter fun item => key item ∈ keys) := by
  induction keys with
  | nil => simp
  | cons first rest inductionHypothesis =>
    obtain ⟨notLater, distinctRest⟩ := List.nodup_cons.mp distinct
    have here : (items.filter fun item => key item ∈ first :: rest).filter
        (fun item => key item = first) = items.filter fun item => key item = first := by
      rw [List.filter_filter]
      refine List.filter_congr fun item _ => ?_
      by_cases same : key item = first <;> simp [same]
    have later : (items.filter fun item => key item ∈ first :: rest).filter
        (fun item => !decide (key item = first)) = items.filter fun item => key item ∈ rest := by
      rw [List.filter_filter]
      refine List.filter_congr fun item _ => ?_
      by_cases same : key item = first
      · simp [same, notLater]
      · simp [same]
    rw [List.flatMap_cons]
    refine ((inductionHypothesis distinctRest).append_left _).trans ?_
    rw [← here, ← later]
    exact List.filter_append_perm _ _

/-- A method is no field. -/
theorem MemberKind.ofMethodName_ne_field (name : String) : ofMethodName name ≠ .field := by
  rw [ofMethodName]
  split
  · simp
  · split <;> simp

namespace Declarations

/-- The numbers that a class lists: those of its fields, constructors and methods, and of its
static initializers the last. -/
def listing (declarations : Declarations) : List MemberId :=
  declarations.fields.map Member.id ++ declarations.ofKind .constructor ++
    declarations.ofKind .method ++ (declarations.ofKind .staticInitializer).getLast?.toList

section OfTyped

variable (table : ClassTable) (first : MemberId) (typed : TypedRecord)

/-- The members that a record declares are numbered upwards. -/
theorem ofTyped_ascending :
    ((ofTyped table first typed).members.map Member.id).Pairwise (· < ·) := by
  rw [ofTyped_ids]
  exact List.pairwise_lt_range'

/-- Declared fields are fields. -/
theorem kind_of_mem_fields {member : Member}
    (listed : member ∈ (ofTyped table first typed).fields) : member.kind = .field := by
  obtain ⟨_, _, rfl⟩ := List.mem_map.mp listed
  rfl

/-- Declared methods are no fields. -/
theorem kind_of_mem_methods {member : Member}
    (listed : member ∈ (ofTyped table first typed).methods) : member.kind ≠ .field := by
  obtain ⟨⟨⟨method, types⟩, id⟩, _, rfl⟩ := List.mem_map.mp listed
  exact MemberKind.ofMethodName_ne_field method.name

end OfTyped

end Declarations

/-- The kinds of methods divide the methods of a class. -/
theorem filter_kinds_perm {methods : List Member}
    (noField : ∀ member ∈ methods, member.kind ≠ .field) :
    (methods.filter (fun member => member.kind = .constructor) ++
      (methods.filter (fun member => member.kind = .method) ++
        methods.filter fun member => member.kind = .staticInitializer)).Perm methods := by
  have others : (methods.filter fun member => !decide (member.kind = .constructor)).Perm
      (methods.filter (fun member => member.kind = .method) ++
        methods.filter fun member => member.kind = .staticInitializer) := by
    refine (List.filter_append_perm (fun member : Member => decide (member.kind = .method))
      _).symm.trans (.of_eq ?_)
    rw [List.filter_filter, List.filter_filter]
    congr 1
    · refine List.filter_congr fun member _ => ?_
      cases member.kind <;> rfl
    · refine List.filter_congr fun member listed => ?_
      have noField := noField member listed
      cases kind : member.kind <;> simp_all
  exact (others.symm.append_left _).trans (List.filter_append_perm _ _)

namespace Declarations

variable (table : ClassTable) (first : MemberId) (typed : TypedRecord)

/-- The members of each kind are numbered upwards. -/
theorem ofKind_ascending (kind : MemberKind) :
    ((ofTyped table first typed).ofKind kind).Pairwise (· < ·) := by
  have ascending := ofTyped_ascending table first typed
  rw [members, List.map_append] at ascending
  exact (List.pairwise_append.mp ascending).2.1.sublist (List.filter_sublist.map Member.id)

/-- A class lists no member twice. -/
theorem listing_nodup : (ofTyped table first typed).listing.Nodup := by
  have all : ((ofTyped table first typed).members.map Member.id).Nodup :=
    (ofTyped_ascending table first typed).imp Nat.ne_of_lt
  have divided := (filter_kinds_perm fun member => kind_of_mem_methods table first typed).map
    Member.id
  rw [members, List.map_append] at all
  have regrouped := (divided.append_left _).nodup_iff.mpr all
  rw [List.map_append, List.map_append, ← List.append_assoc, ← List.append_assoc] at regrouped
  refine regrouped.sublist (List.Sublist.append_left ?_ _)
  cases last : ((ofTyped table first typed).ofKind .staticInitializer).getLast? with
  | none => exact List.nil_sublist _
  | some id => exact List.singleton_sublist.mpr (List.mem_of_getLast? last)

/-- The numbers of a kind are those of the members of the kind. -/
theorem mem_ofKind_iff (kind : MemberKind) (noField : kind ≠ .field) {number : MemberId} :
    number ∈ (ofTyped table first typed).ofKind kind ↔
      ∃ member ∈ (ofTyped table first typed).members, member.id = number ∧ member.kind = kind := by
  simp only [ofKind, members, List.mem_map, List.mem_filter, List.mem_append, decide_eq_true_eq]
  constructor
  · rintro ⟨member, ⟨isMethod, isKind⟩, same⟩
    exact ⟨member, Or.inr isMethod, same, isKind⟩
  · rintro ⟨member, isField | isMethod, same, isKind⟩
    · exact absurd (isKind.symm.trans (kind_of_mem_fields table first typed isField)) noField
    · exact ⟨member, ⟨isMethod, isKind⟩, same⟩

/-- The numbers of declared fields are those of all members that are fields. -/
theorem mem_fields_iff {number : MemberId} :
    number ∈ (ofTyped table first typed).fields.map Member.id ↔
      ∃ member ∈ (ofTyped table first typed).members, member.id = number ∧
        member.kind = .field := by
  simp only [members, List.mem_map, List.mem_append]
  constructor
  · rintro ⟨member, isField, same⟩
    exact ⟨member, Or.inl isField, same, kind_of_mem_fields table first typed isField⟩
  · rintro ⟨member, isField | isMethod, same, isKind⟩
    · exact ⟨member, isField, same⟩
    · exact absurd isKind (kind_of_mem_methods table first typed isMethod)

/-- A class lists what its record declares, but of static initializers the last only. -/
theorem mem_listing_iff {number : MemberId} :
    number ∈ (ofTyped table first typed).listing ↔
      ∃ member ∈ (ofTyped table first typed).members, member.id = number ∧
        (member.kind = .staticInitializer → ∀ later ∈ (ofTyped table first typed).members,
          later.kind = .staticInitializer → later.id ≤ number) := by
  have isLast := @mem_getLast?_iff_of_pairwise _
    (ofKind_ascending table first typed .staticInitializer) number
  simp only [Option.mem_def, mem_ofKind_iff table first typed .staticInitializer nofun]
    at isLast
  simp only [listing, List.mem_append, Option.mem_toList, mem_fields_iff, isLast,
    mem_ofKind_iff table first typed .constructor nofun,
    mem_ofKind_iff table first typed .method nofun]
  have kept {kind : MemberKind}
      (found : ∃ member ∈ (ofTyped table first typed).members, member.id = number ∧
        member.kind = kind) (differs : kind ≠ .staticInitializer) :
      ∃ member ∈ (ofTyped table first typed).members, member.id = number ∧
        (member.kind = .staticInitializer → ∀ later ∈ (ofTyped table first typed).members,
          later.kind = .staticInitializer → later.id ≤ number) := by
    obtain ⟨member, declared, same, isKind⟩ := found
    exact ⟨member, declared, same, fun other => absurd (isKind.symm.trans other) differs⟩
  constructor
  · rintro (((isField | isConstructor) | isMethod) | ⟨isInitializer, greatest⟩)
    · exact kept isField nofun
    · exact kept isConstructor nofun
    · exact kept isMethod nofun
    · obtain ⟨member, declared, same, _⟩ := isInitializer
      exact ⟨member, declared, same, fun _ later inRow laterKind =>
        greatest later.id ⟨later, inRow, rfl, laterKind⟩⟩
  · rintro ⟨member, declared, same, greatest⟩
    cases isKind : member.kind with
    | field => exact Or.inl (Or.inl (Or.inl ⟨member, declared, same, isKind⟩))
    | constructor => exact Or.inl (Or.inl (Or.inr ⟨member, declared, same, isKind⟩))
    | method => exact Or.inl (Or.inr ⟨member, declared, same, isKind⟩)
    | staticInitializer =>
      refine Or.inr ⟨⟨member, declared, same, isKind⟩, ?_⟩
      rintro _ ⟨later, inRow, rfl, laterKind⟩
      exact greatest isKind later inRow laterKind

end Declarations

namespace ClassGraph

/-- The member is a static initializer, and its class has a later one. -/
def Displaced (graph : ClassGraph) (number : MemberId) : Prop :=
  ∃ member ∈ graph.members, member.id = number ∧ member.kind = .staticInitializer ∧
    ∃ later ∈ graph.members, number < later.id ∧ later.kind = .staticInitializer ∧
      later.owner = member.owner

instance (graph : ClassGraph) : DecidablePred graph.Displaced := fun number =>
  inferInstanceAs (Decidable (∃ member ∈ graph.members, member.id = number ∧
    member.kind = .staticInitializer ∧ ∃ later ∈ graph.members, number < later.id ∧
      later.kind = .staticInitializer ∧ later.owner = member.owner))

/-- The classes of a graph list its members, all but those displaced, and so lead to its
accesses, all but those of displaced members. -/
structure MembersListed (graph : ClassGraph) : Prop where
  owned : Throughout graph.classes fun id node =>
    ∀ number ∈ node.members, graph.members[number]?.map Member.owner = some id
  members : (graph.classes.toList.flatMap ClassNode.members).Perm
    ((List.range graph.members.size).filter fun number => ¬ graph.Displaced number)
  accesses : (graph.classes.toList.flatMap graph.accessesFromClass).Perm
    (graph.accesses.toList.filter fun access => ¬ graph.Displaced access.origin)

end ClassGraph

namespace Link

variable {records : List TypedRecord} {missing : List String}

/-- What members are apart from their accesses is read off the rows. -/
theorem exists_mem_graph_members_iff {holds : MemberId → ClassId → MemberKind → Prop} :
    (∃ member ∈ (graph records missing).members, holds member.id member.owner member.kind) ↔
      ∃ typed declarations, (typed, declarations) ∈ rows records missing ∧
        ∃ member ∈ declarations.members, holds member.id member.owner member.kind := by
  obtain ⟨outgoing, same⟩ := @graph_members_map records missing
  simp only [same, Array.mem_map, allMembers, List.mem_toArray, declaredMembers, List.mem_flatMap]
  constructor
  · rintro ⟨_, ⟨member, ⟨⟨typed, declarations⟩, row, declared⟩, rfl⟩, found⟩
    exact ⟨typed, declarations, row, member, declared, found⟩
  · rintro ⟨typed, declarations, row, member, declared, found⟩
    exact ⟨_, ⟨member, ⟨(typed, declarations), row, declared⟩, rfl⟩, found⟩

/-- A class that lists a member is that of a record. -/
theorem exists_row_of_listed {id : ClassId} {node : ClassNode}
    (stands : (graph records missing).classes[id]? = some node) {place : MemberId}
    (listed : place ∈ node.members) :
    ∃ typed declarations, (typed, declarations) ∈ rows records missing ∧
      declarations.owner = id := by
  have each : Throughout (declaredNodes (number records missing) (rows records missing))
      fun id node => node.members ≠ [] → ∃ typed declarations,
        (typed, declarations) ∈ rows records missing ∧ declarations.owner = id := by
    refine declaredNodes_throughout (fun id type atId listed => absurd rfl listed) ?_
    exact fun typed declarations row node _ _ => ⟨typed, declarations, row, rfl⟩
  have same := @graph_view_declared records missing _ ClassNode.members (fun _ => rfl)
    (fun _ _ => rfl) id
  rw [stands, Option.map_some, eq_comm, Option.map_eq_some_iff] at same
  obtain ⟨declared, atId, sameMembers⟩ := same
  exact each id declared atId (sameMembers ▸ List.ne_nil_of_mem listed)

/-- The class of a record lists what the record declares. -/
theorem graph_members_of_row (distinct : Distinct records missing) {typed : TypedRecord}
    {declarations : Declarations} (row : (typed, declarations) ∈ rows records missing)
    {node : ClassNode}
    (stands : (graph records missing).classes[declarations.owner]? = some node) :
    node.members = declarations.listing := by
  obtain ⟨_, same⟩ := graph_view_of_row distinct row stands ClassNode.members (fun _ => rfl)
    fun _ _ => rfl
  exact same

/-- The members of a row belong to the class of the row. -/
theorem owner_of_mem_row {typed : TypedRecord} {declarations : Declarations}
    (row : (typed, declarations) ∈ rows records missing) {member : Member}
    (declared : member ∈ declarations.members) : member.owner = declarations.owner := by
  obtain ⟨_, start, rfl⟩ := mem_rows row
  exact Declarations.owner_of_mem_ofTyped _ _ _ declared

/-- No two members that records declare have one number. -/
theorem eq_of_id_eq {first second : TypedRecord × Declarations}
    (firstRow : first ∈ rows records missing) (secondRow : second ∈ rows records missing)
    {member other : Member} (inFirst : member ∈ first.2.members)
    (inSecond : other ∈ second.2.members) (same : member.id = other.id) : member = other := by
  have stands := getElem?_allMembers_of_row firstRow inFirst
  rw [same, getElem?_allMembers_of_row secondRow inSecond, Option.some.injEq] at stands
  exact stands.symm

/-- A member of a row is displaced by a later one of the same row. -/
theorem graph_displaced_iff (distinct : Distinct records missing) {typed : TypedRecord}
    {declarations : Declarations} (row : (typed, declarations) ∈ rows records missing)
    {member : Member} (declared : member ∈ declarations.members) :
    (graph records missing).Displaced member.id ↔ member.kind = .staticInitializer ∧
      ∃ later ∈ declarations.members, member.id < later.id ∧ later.kind = .staticInitializer := by
  have ofRows (owner : ClassId) : (∃ later ∈ (graph records missing).members,
      member.id < later.id ∧ later.kind = .staticInitializer ∧ later.owner = owner) ↔
        ∃ typed declarations, (typed, declarations) ∈ rows records missing ∧
          ∃ later ∈ declarations.members, member.id < later.id ∧
            later.kind = .staticInitializer ∧ later.owner = owner :=
    @exists_mem_graph_members_iff records missing fun id place kind =>
      member.id < id ∧ kind = .staticInitializer ∧ place = owner
  simp only [ClassGraph.Displaced, ofRows]
  rw [@exists_mem_graph_members_iff records missing fun id owner kind => id = member.id ∧
    kind = .staticInitializer ∧ ∃ typed declarations, (typed, declarations) ∈ rows records missing ∧
      ∃ later ∈ declarations.members, member.id < later.id ∧ later.kind = .staticInitializer ∧
        later.owner = owner]
  constructor
  · rintro ⟨_, _, otherRow, other, otherDeclared, sameId, isKind, _, _, laterRow, later, inLater,
      isLater, laterKind, sameOwner⟩
    obtain rfl := eq_of_id_eq otherRow row otherDeclared declared sameId
    rw [owner_of_mem_row laterRow inLater, owner_of_mem_row row declared] at sameOwner
    cases distinct.eq_of_owner_eq laterRow row sameOwner
    exact ⟨isKind, later, inLater, isLater, laterKind⟩
  · rintro ⟨isKind, later, inRow, isLater, laterKind⟩
    refine ⟨typed, declarations, row, member, declared, rfl, isKind, typed, declarations, row,
      later, inRow, isLater, laterKind, ?_⟩
    rw [owner_of_mem_row row inRow, owner_of_mem_row row declared]

/-- A record lists its members, all but those displaced. -/
theorem mem_listing_iff_of_row (distinct : Distinct records missing) {typed : TypedRecord}
    {declarations : Declarations} (row : (typed, declarations) ∈ rows records missing)
    {place : MemberId} :
    place ∈ declarations.listing ↔ ∃ member ∈ declarations.members, member.id = place ∧
      ¬ (graph records missing).Displaced place := by
  have displaced := @graph_displaced_iff records missing distinct _ _ row
  obtain ⟨_, start, rfl⟩ := mem_rows row
  rw [Declarations.mem_listing_iff]
  constructor
  · rintro ⟨member, declared, rfl, greatest⟩
    refine ⟨member, declared, rfl, fun isDisplaced => ?_⟩
    obtain ⟨isKind, later, inRow, isLater, laterKind⟩ := (displaced declared).mp isDisplaced
    exact absurd (greatest isKind later inRow laterKind) (Nat.not_le.mpr isLater)
  · rintro ⟨member, declared, rfl, kept⟩
    refine ⟨member, declared, rfl, fun isKind later inRow laterKind => ?_⟩
    by_contra isLater
    exact kept ((displaced declared).mpr ⟨isKind, later, inRow, Nat.not_le.mp isLater, laterKind⟩)

/-- The owner of a member is read off the rows. -/
theorem graph_owner_iff {place : MemberId} {owner : ClassId} :
    (graph records missing).members[place]?.map Member.owner = some owner ↔
      ∃ typed declarations, (typed, declarations) ∈ rows records missing ∧
        declarations.owner = owner ∧ ∃ member ∈ declarations.members, member.id = place := by
  obtain ⟨outgoing, same⟩ := @graph_members_map records missing
  simp only [same, Array.getElem?_map, Option.map_map, Option.map_eq_some_iff, Function.comp_apply]
  constructor
  · rintro ⟨member, stands, rfl⟩
    obtain ⟨typed, declarations, row, declared⟩ := exists_row_of_getElem?_allMembers stands
    exact ⟨typed, declarations, row, (owner_of_mem_row row declared).symm, member, declared,
      id_of_getElem?_allMembers stands⟩
  · rintro ⟨typed, declarations, row, rfl, member, declared, rfl⟩
    exact ⟨member, getElem?_allMembers_of_row row declared, owner_of_mem_row row declared⟩

/-- A class lists its own members, all but those displaced. -/
theorem mem_graph_members_iff (distinct : Distinct records missing) {id : ClassId}
    {node : ClassNode} (stands : (graph records missing).classes[id]? = some node)
    {place : MemberId} :
    place ∈ node.members ↔ (graph records missing).members[place]?.map Member.owner = some id ∧
      ¬ (graph records missing).Displaced place := by
  rw [graph_owner_iff]
  constructor
  · intro listed
    obtain ⟨typed, declarations, row, rfl⟩ := exists_row_of_listed stands listed
    rw [graph_members_of_row distinct row stands, mem_listing_iff_of_row distinct row] at listed
    obtain ⟨member, declared, same, kept⟩ := listed
    exact ⟨⟨typed, declarations, row, rfl, member, declared, same⟩, kept⟩
  · rintro ⟨⟨typed, declarations, row, rfl, member, declared, same⟩, kept⟩
    rw [graph_members_of_row distinct row stands, mem_listing_iff_of_row distinct row]
    exact ⟨member, declared, same, kept⟩

/-- The accesses of a class are those that come from the members it lists. -/
theorem graph_accessesFromClass {node : ClassNode}
    (inside : ∀ place ∈ node.members, place < (graph records missing).members.size) :
    (graph records missing).accessesFromClass node = node.members.flatMap fun place =>
      (graph records missing).accesses.toList.filter fun access => access.origin = place := by
  rw [ClassGraph.accessesFromClass, ClassGraph.membersOf]
  generalize node.members = places at inside
  induction places with
  | nil => rfl
  | cons place rest inductionHypothesis =>
    obtain ⟨here, later⟩ := List.forall_mem_cons.mp inside
    have stands := Array.getElem?_eq_getElem here
    have outgoing := graph_outgoing place _ stands
    rw [List.filterMap_cons_some stands, List.flatMap_cons, List.flatMap_cons,
      inductionHypothesis later, outgoing, graph_accessesAt_map_id]
    exact fun access selected => Array.mem_toList_iff.mp (List.mem_filter.mp selected).1

/-- A class lists no member twice. -/
theorem graph_members_nodup (distinct : Distinct records missing) :
    Throughout (graph records missing).classes fun _ node => node.members.Nodup := by
  intro id node stands
  by_cases empty : node.members = []
  · simp [empty]
  · obtain ⟨place, listed⟩ := List.exists_mem_of_ne_nil _ empty
    obtain ⟨typed, declarations, row, rfl⟩ := exists_row_of_listed stands listed
    rw [graph_members_of_row distinct row stands]
    obtain ⟨_, start, rfl⟩ := mem_rows row
    exact Declarations.listing_nodup _ _ _

/-- The classes together list every member once, but none that is displaced. -/
theorem graph_members_perm (readable : ∀ typed ∈ records, typed.types.Readable)
    (distinct : Distinct records missing) :
    ((graph records missing).classes.toList.flatMap ClassNode.members).Perm
      ((List.range (graph records missing).members.size).filter
        fun place => ¬ (graph records missing).Displaced place) := by
  refine (List.perm_ext_iff_of_nodup ?_ (List.nodup_range.filter _)).mpr fun place => ?_
  · rw [List.nodup_flatMap]
    constructor
    · intro node listed
      obtain ⟨id, stands⟩ := Array.mem_iff_getElem?.mp (Array.mem_toList_iff.mp listed)
      exact graph_members_nodup distinct id node stands
    · rw [List.pairwise_iff_getElem]
      intro first second firstInside secondInside before place inFirst inSecond
      have firstStands := Array.getElem?_toList.symm.trans (List.getElem?_eq_getElem firstInside)
      have secondStands := Array.getElem?_toList.symm.trans (List.getElem?_eq_getElem secondInside)
      have firstOwner := ((mem_graph_members_iff distinct firstStands).mp inFirst).1
      have secondOwner := ((mem_graph_members_iff distinct secondStands).mp inSecond).1
      exact before.ne (Option.some.inj (firstOwner.symm.trans secondOwner))
  · simp only [List.mem_flatMap, Array.mem_toList_iff, List.mem_filter, List.mem_range, decide_not,
      Bool.not_eq_true', decide_eq_false_iff_not]
    constructor
    · rintro ⟨node, listed, inNode⟩
      obtain ⟨id, stands⟩ := Array.mem_iff_getElem?.mp listed
      obtain ⟨owner, kept⟩ := (mem_graph_members_iff distinct stands).mp inNode
      obtain ⟨member, atPlace, _⟩ := Option.map_eq_some_iff.mp owner
      exact ⟨(Array.getElem?_eq_some_iff.mp atPlace).1, kept⟩
    · rintro ⟨inside, kept⟩
      have within := (graph_wellFormed readable).members place _ (Array.getElem?_eq_getElem inside)
      have stands := Array.getElem?_eq_getElem within.owner
      refine ⟨_, Array.mem_of_getElem? stands,
        (mem_graph_members_iff distinct stands).mpr ⟨?_, kept⟩⟩
      rw [Array.getElem?_eq_getElem inside, Option.map_some]

/-- So they lead to every access once, but to none that comes from a displaced member. -/
theorem graph_accesses_perm (readable : ∀ typed ∈ records, typed.types.Readable)
    (distinct : Distinct records missing) :
    ((graph records missing).classes.toList.flatMap (graph records missing).accessesFromClass).Perm
      ((graph records missing).accesses.toList.filter
        fun access => ¬ (graph records missing).Displaced access.origin) := by
  have fromMembers : (graph records missing).classes.toList.flatMap
      (graph records missing).accessesFromClass =
        ((graph records missing).classes.toList.flatMap ClassNode.members).flatMap fun place =>
          (graph records missing).accesses.toList.filter fun access => access.origin = place := by
    rw [List.flatMap_assoc]
    refine List.flatMap_congr fun node listed => graph_accessesFromClass fun place inNode => ?_
    obtain ⟨id, stands⟩ := Array.mem_iff_getElem?.mp (Array.mem_toList_iff.mp listed)
    exact ((graph_wellFormed readable).classes id node stands).members place inNode
  rw [fromMembers]
  refine ((graph_members_perm readable distinct).flatMap_right _).trans ?_
  refine (flatMap_filter_perm AccessEdge.origin _ (List.nodup_range.filter _)).trans (.of_eq ?_)
  refine List.filter_congr fun access listed => ?_
  obtain ⟨id, stands⟩ := Array.mem_iff_getElem?.mp (Array.mem_toList_iff.mp listed)
  have inside := ((graph_wellFormed readable).accesses id access stands).origin
  simp only [List.mem_filter, List.mem_range, inside, true_and, Bool.decide_eq_true]

end Link

/-- A pool of sample records is ready for linking. -/
theorem samplePool_completed (records : List ClassRecord) : (samplePool records).Completed := by
  have added : ∀ pool : ClassPool, pool.Collected →
      (records.foldl (fun (pool : ClassPool) (record : ClassRecord) =>
        (pool.add record { uri := record.name, fileName := none, checksum := .disabled }).1)
        pool).Collected := by
    induction records with
    | nil => exact fun _ collected => collected
    | cons record rest inductionHypothesis =>
      exact fun pool collected => inductionHypothesis _ (collected.add _ _)
  exact .withoutResolver (added _ (.empty false))

/-- In the graph of a completed pool with dotted names, classes list their own members, and together
all but the static initializers that a later one displaces, each once. The accesses of the classes
are all accesses but those of displaced initializers, each once. -/
theorem ClassPool.link_members_listed {pool : ClassPool} (completed : pool.Completed)
    (dotted : pool.Dotted) : pool.link.1.MembersListed := by
  have distinct := (completed.filed dotted).distinct
  rw [link_graph]
  exact {
    owned := fun id node stands place listed =>
      ((Link.mem_graph_members_iff distinct stands).mp listed).1
    members := Link.graph_members_perm readable_of_mem_typedRecords distinct
    accesses := Link.graph_accesses_perm readable_of_mem_typedRecords distinct }

/-- A class with two static initializers, of which the first accesses a method. -/
def initializersPool : ClassPool :=
  samplePool
    [sampleClass "A" 0x0021 []
      [sampleMethod "<clinit>" "()V" 0x0008
          [{ kind := .methodCall, owner := "A", name := "m", descriptor := "()V", line := 0 }],
        sampleMethod "<clinit>" "(I)V" 0x0008 []]]

/-- The first initializer is displaced, so that no class lists it and the one access of the graph
is that of no class. -/
theorem link_members_listed_initializers :
    initializersPool.Completed ∧ initializersPool.Dotted ∧
      initializersPool.link.1.MembersListed ∧
      initializersPool.link.1.Displaced 0 ∧
      initializersPool.link.1.classes.map ClassNode.members = #[[1]] ∧
      initializersPool.link.1.accesses.size = 1 ∧
      initializersPool.link.1.classes.map initializersPool.link.1.accessesFromClass = #[[]] := by
  have completed : initializersPool.Completed := samplePool_completed _
  have dotted : initializersPool.Dotted := by decide +kernel
  have members : initializersPool.link.1.members.map
      (fun member => (member.id, member.owner, member.kind)) =
        #[(0, 0, .staticInitializer), (1, 0, .staticInitializer)] := by decide +kernel
  refine ⟨completed, dotted, ClassPool.link_members_listed completed dotted, ?_, by decide +kernel,
    by decide +kernel, by decide +kernel⟩
  obtain ⟨first, firstStands, firstSeen⟩ := exists_getElem?_of_map members 0 (by decide)
  obtain ⟨second, secondStands, secondSeen⟩ := exists_getElem?_of_map members 1 (by decide)
  simp only [List.getElem_toArray, List.getElem_cons_zero, List.getElem_cons_succ,
    Prod.mk.injEq] at firstSeen secondSeen
  refine ⟨first, Array.mem_of_getElem? firstStands, firstSeen.1, firstSeen.2.2, second,
    Array.mem_of_getElem? secondStands, ?_, secondSeen.2.2, ?_⟩
  · rw [secondSeen.1]
    exact Nat.zero_lt_one
  · rw [secondSeen.2.1, firstSeen.2.1]

end ClassAtlas
