import ClassAtlas.Proofs.LinkedHierarchy
import Mathlib.Data.Set.Finite.Basic
import Mathlib.Order.WellFounded

/-!
# Targets of accesses in linked graphs

An access of a linked graph that is resolved leads to the member that the rule of resolution
finds in that graph: the search ran before accesses and type references were filled in, but
it reads nothing that is filled in later.

An access to a field or method is left unresolved where no ancestor declares a match, and in
one more case. Off the superclass line a declaration is set aside if another overrides it.
Where interfaces extend each other in a circle, each declaration may be set aside for
another, and nothing remains to choose. Without a circle of declaring ancestors there is
always one that no other overrides, so that what is declared is found.
-/

namespace ClassAtlas

open Relation Reachability

/-- What an access looks for. -/
def AccessEdge.target (access : AccessEdge) : AccessTarget :=
  { kind := access.kind, name := access.name, descriptor := access.descriptor }

namespace AccessTarget

variable {classes : Array ClassNode} {members : Array Member} {target : AccessTarget}
  {owner declaring : ClassId} {line others : List ClassId}

/-- What is found for an access is the first match that the declaring class lists. -/
theorem Finds.declaresFirst {number : MemberId} {member : Member}
    (finds : Finds classes members target owner line others declaring number member) :
    DeclaresFirst classes members target declaring number member := by
  cases finds <;> assumption

/-- What the rule finds is declared by the named class or by one of its ancestors. -/
theorem Finds.declaring_mem (listing : Hierarchy.Listing classes owner line others)
    {number : MemberId} {member : Member}
    (finds : Finds classes members target owner line others declaring number member) :
    declaring ∈ owner :: Hierarchy.listed classes owner := by
  rw [listing.split]
  cases finds with
  | own => exact List.mem_cons_self
  | inherited _ place => simp [place]
  | chosen _ place => simp [place]

/-- There are declarations among some classes, and each is overridden by another. -/
def Deadlocked (classes : Array ClassNode) (members : Array Member) (target : AccessTarget)
    (others : List ClassId) : Prop :=
  (∃ other ∈ others, Declares classes members target other) ∧
    ∀ other ∈ others, Declares classes members target other →
      Overridden classes members target others other

/-- The search fails for want of a declaration, or over a deadlock off the line. -/
theorem resolve_eq_none_iff_deadlocked (listing : Hierarchy.Listing classes owner line others)
    (owned : ∀ id member, declaredIn classes members target id = some member → member.owner = id)
    (inheritable : target.kind ≠ .constructorCall) :
    resolve classes members owner target = none ↔
      (∀ id ∈ owner :: Hierarchy.listed classes owner, ¬ Declares classes members target id) ∨
      (∀ id ∈ owner :: line, ¬ Declares classes members target id) ∧
      Deadlocked classes members target others := by
  rw [resolve_eq_none_iff listing owned inheritable, listing.split, ← List.cons_append]
  constructor
  · rintro ⟨nearer, overridden⟩
    by_cases declared : ∃ other ∈ others, Declares classes members target other
    · exact Or.inr ⟨nearer, declared, overridden⟩
    · push Not at declared
      exact Or.inl (List.forall_mem_append.mpr ⟨nearer, declared⟩)
  · rintro (none | ⟨nearer, _, overridden⟩)
    · obtain ⟨nearer, further⟩ := List.forall_mem_append.mp none
      exact ⟨nearer, fun other present declares => absurd declares (further other present)⟩
    · exact ⟨nearer, overridden⟩

/-- Among finitely many declarations that are all overridden, some lie on a circle: otherwise
one of them would be lowest. -/
theorem Deadlocked.exists_circle
    (above : ∀ lower, ∀ upper ∈ Hierarchy.listed classes lower,
      TransGen (Hierarchy.Extends classes) lower upper)
    (deadlocked : Deadlocked classes members target others) :
    ∃ id ∈ others, Declares classes members target id ∧
      TransGen (Hierarchy.Extends classes) id id := by
  obtain ⟨⟨start, present, declares⟩, overridden⟩ := deadlocked
  by_contra noCircle
  push Not at noCircle
  let Declaring := { id // id ∈ others ∧ Declares classes members target id }
  let Below (lower upper : Declaring) : Prop :=
    TransGen (Hierarchy.Extends classes) lower.1 upper.1
  have finite : Finite Declaring :=
    (others.finite_toSet.subset fun _ listed => listed.1).to_subtype
  have transitive : IsTrans Declaring Below := ⟨fun _ _ _ => TransGen.trans⟩
  have irreflexive : Std.Irrefl Below := ⟨fun id => noCircle id.1 id.2.1 id.2.2⟩
  obtain ⟨lowest, _, minimal⟩ := (Finite.wellFounded_of_trans_of_irrefl Below).has_min Set.univ
    ⟨⟨start, present, declares⟩, trivial⟩
  obtain ⟨other, among, _, otherDeclares, isAbove⟩ := overridden lowest.1 lowest.2.1 lowest.2.2
  exact minimal ⟨other, among, otherDeclares⟩ trivial (above other lowest.1 isAbove)

end AccessTarget

namespace Link

variable {records : List TypedRecord} {missing : List String}

/-- The nodes list members of their own only. -/
theorem declaredNodes_owned :
    Throughout (declaredNodes (number records missing) (rows records missing)) fun id node =>
      ∀ place ∈ node.members, ∀ member, (allMembers records missing)[place]? = some member →
        member.owner = id := by
  refine declaredNodes_throughout ?_ ?_
  · simp [ClassTable.stub, ClassNode.members]
  · intro typed declarations listed node _ place inNode member stands
    obtain ⟨declared, inRow, rfl⟩ := ClassNode.mem_members_declare inNode
    rw [getElem?_allMembers_of_row listed inRow, Option.some.injEq] at stands
    obtain ⟨_, start, rfl⟩ := mem_rows listed
    rw [← stands]
    exact Declarations.owner_of_mem_ofTyped _ _ _ inRow

/-- In the graph, members differ from the declared ones by their accesses only. -/
theorem graph_members_map : ∃ outgoing : Member → List AccessId,
    (graph records missing).members =
      (allMembers records missing).map fun member => { member with accesses := outgoing member } :=
  ⟨_, graph_members records missing⟩

/-- The members of a graph stand at their own numbers. -/
theorem id_of_getElem?_graph_members {number : MemberId} {member : Member}
    (stands : (graph records missing).members[number]? = some member) : member.id = number := by
  obtain ⟨outgoing, same⟩ := @graph_members_map records missing
  rw [same, Array.getElem?_map, Option.map_eq_some_iff] at stands
  obtain ⟨declared, atNumber, rfl⟩ := stands
  have numbered : declared.id = number := id_of_getElem?_allMembers atNumber
  exact numbered

/-- A class of the graph lists members of its own only. -/
theorem owner_of_mem_graph_members {id : ClassId} {node : ClassNode}
    (stands : (graph records missing).classes[id]? = some node) {place : MemberId}
    (listed : place ∈ node.members) {member : Member}
    (atPlace : (graph records missing).members[place]? = some member) : member.owner = id := by
  obtain ⟨outgoing, same⟩ := @graph_members_map records missing
  rw [same, Array.getElem?_map, Option.map_eq_some_iff] at atPlace
  obtain ⟨source, atNumber, rfl⟩ := atPlace
  have sameMembers := @graph_view_declared records missing _ ClassNode.members (fun _ => rfl)
    (fun _ _ => rfl) id
  rw [stands, Option.map_some, eq_comm, Option.map_eq_some_iff] at sameMembers
  obtain ⟨declared, atId, members⟩ := sameMembers
  exact declaredNodes_owned id declared atId place (members ▸ listed) source atNumber

/-- A member that is found in a class of the graph belongs to it. -/
theorem graph_owned {target : AccessTarget} (id : ClassId) (member : Member)
    (found : AccessTarget.declaredIn (graph records missing).classes
      (graph records missing).members target id = some member) : member.owner = id := by
  obtain ⟨place, node, before, after, stands, split, atPlace, _⟩ :=
    AccessTarget.declaredIn_eq_some_iff.mp found
  exact owner_of_mem_graph_members stands (by simp [split]) atPlace

/-- The search in the finished graph finds what it found before the last passes. -/
theorem graph_resolve (target : AccessTarget) (owner : ClassId) :
    (target.resolve (graph records missing).classes (graph records missing).members owner).map
        Member.id =
      (target.resolve (nodes records missing) (allMembers records missing) owner).map
        Member.id := by
  obtain ⟨outgoing, same⟩ := @graph_members_map records missing
  rw [same, AccessTarget.resolve_congr (graph_view ClassNode.members fun _ => rfl)
      (graph_view ClassNode.ancestors fun _ => rfl)
      (Hierarchy.superclass_congr (graph_view ClassNode.superclass fun _ => rfl)),
    AccessTarget.resolve_map, Option.map_map]
  · rfl
  all_goals exact fun _ => rfl

/-- An access is resolved as the search in the finished graph resolves it. -/
theorem graph_resolved {id : AccessId} {access : AccessEdge}
    (stands : (graph records missing).accesses[id]? = some access) :
    access.resolved = (access.target.resolve (graph records missing).classes
      (graph records missing).members access.owner).map Member.id := by
  rw [graph_accesses, List.getElem?_toArray] at stands
  obtain ⟨body, _, made, owner, _, rfl⟩ := exists_body_of_edge stands
  exact (graph_resolve _ owner).symm

/-- The named class of an access lists its line and its other ancestors. -/
theorem graph_access_listing (readable : ∀ typed ∈ records, typed.types.Readable) {id : AccessId}
    {access : AccessEdge} (stands : (graph records missing).accesses[id]? = some access) :
    ∃ line others,
      Hierarchy.Listing (graph records missing).classes access.owner line others := by
  have inside := (graph_accesses_within id access stands).owner
  rw [← size_graph_classes] at inside
  exact ⟨_, _, graph_listing readable (Array.getElem?_eq_getElem inside)⟩

end Link

/-- Whatever an access of the graph is resolved to is declared by the named class or by an
ancestor, and the rule finds it there: for the named class, the line and the other ancestors
that the graph lists for it. -/
def ClassGraph.ResolvesByRule (graph : ClassGraph) : Prop :=
  Throughout graph.accesses fun _ access => ∀ number ∈ access.resolved,
    ∃ line others member, Hierarchy.Listing graph.classes access.owner line others ∧
      member.owner ∈ access.owner :: Hierarchy.listed graph.classes access.owner ∧
      AccessTarget.Finds graph.classes graph.members access.target access.owner line others
        member.owner number member

/-- In the graph of any pool, accesses are resolved by the rule. -/
theorem ClassPool.link_resolves_by_rule (pool : ClassPool) : pool.link.1.ResolvesByRule := by
  intro id access stands number resolved
  rw [link_graph] at stands ⊢
  obtain ⟨line, others, listing⟩ := Link.graph_access_listing readable_of_mem_typedRecords stands
  rw [Link.graph_resolved stands, Option.mem_def, Option.map_eq_some_iff] at resolved
  obtain ⟨member, found, rfl⟩ := resolved
  obtain ⟨declaring, place, finds⟩ := AccessTarget.finds_of_resolve listing Link.graph_owned found
  have owner := Link.graph_owned declaring member
    (AccessTarget.declaredIn_eq_some_iff.mpr ⟨place, finds.declaresFirst⟩)
  obtain ⟨_, _, _, _, _, atPlace, _⟩ := finds.declaresFirst
  rw [← owner, ← Link.id_of_getElem?_graph_members atPlace] at finds
  exact ⟨line, others, member, listing, finds.declaring_mem listing, finds⟩

/-- A method record whose body makes some accesses. -/
def sampleMethod (name descriptor : String) (flags : UInt16) (accesses : List AccessRecord) :
    MethodRecord :=
  { name, descriptor, flags, annotations := [], throws := [], accesses, typeMentions := []
    firstLine := none }

/-- A class record with interfaces and methods only. -/
def sampleClass (name : String) (flags : UInt16) (interfaces : List String)
    (methods : List MethodRecord) : ClassRecord :=
  { name, flags, major := 52, minor := 0, superclass := none, interfaces, fields := [], methods
    annotations := [], sourceFile := none, nesting := {} }

/-- A pool of imported records. -/
def samplePool (records : List ClassRecord) : ClassPool :=
  (records.foldl
    (fun (pool : ClassPool) (record : ClassRecord) =>
      (pool.add record { uri := record.name, fileName := none, checksum := .disabled }).1)
    (.empty false)).completeWithoutResolver

/-- A method `r` that calls `m` on `C`. -/
def sampleCaller (descriptor : String) : MethodRecord :=
  sampleMethod "r" "()V" 0x0001
    [{ kind := .methodCall, owner := "C", name := "m", descriptor, line := 0 }]

/-- An interface that declares `m` twice with the same parameters, at first abstract. -/
def covariantPool : ClassPool :=
  samplePool
    [sampleClass "C" 0x0021 ["J"] [sampleCaller "()I"],
      sampleClass "J" 0x0600 []
        [sampleMethod "m" "()J" 0x0401 [], sampleMethod "m" "()I" 0x0001 []]]

/-- More than the rule: off the line, an abstract member is taken only if every match of
every class that is not overridden is abstract. -/
def ClassGraph.PrefersConcrete (graph : ClassGraph) : Prop :=
  Throughout graph.accesses fun _ access => ∀ number ∈ access.resolved, ∀ line others member,
    Hierarchy.Listing graph.classes access.owner line others →
    graph.members[number]? = some member → member.owner ∈ others → member.isAbstract = true →
    ∀ other ∈ others,
      ¬ AccessTarget.Overridden graph.classes graph.members access.target others other →
      ∀ node place found, graph.classes[other]? = some node → place ∈ node.members →
        graph.members[place]? = some found → access.target.Matches found →
          found.isAbstract = true

/-- A class stands for its first match, even if a later one is not abstract. -/
theorem covariant_not_prefersConcrete : ¬ covariantPool.link.1.PrefersConcrete := by
  intro prefers
  have accesses : covariantPool.link.1.accesses.map
      (fun access => (access.owner, access.target, access.resolved)) =
        #[(0, ⟨.methodCall, "m", "()I"⟩, some 1)] := by decide +kernel
  have classes : covariantPool.link.1.classes.map
      (fun node => (node.superclass, node.ancestors, node.members)) =
        #[(none, [1], [0]), (none, [], [1, 2])] := by decide +kernel
  have members : covariantPool.link.1.members.map
      (fun member => (member.owner, member.kind, member.name, member.descriptor,
        member.isAbstract)) =
        #[(0, .method, "r", "()V", false), (1, .method, "m", "()J", true),
          (1, .method, "m", "()I", false)] := by decide +kernel
  obtain ⟨access, accessStands, accessSeen⟩ := exists_getElem?_of_map accesses 0 (by decide)
  obtain ⟨caller, callerStands, callerSeen⟩ := exists_getElem?_of_map classes 0 (by decide)
  obtain ⟨callee, calleeStands, calleeSeen⟩ := exists_getElem?_of_map classes 1 (by decide)
  obtain ⟨first, firstStands, firstSeen⟩ := exists_getElem?_of_map members 1 (by decide)
  obtain ⟨second, secondStands, secondSeen⟩ := exists_getElem?_of_map members 2 (by decide)
  simp only [List.getElem_toArray, List.getElem_cons_zero, List.getElem_cons_succ,
    Prod.mk.injEq] at accessSeen callerSeen calleeSeen firstSeen secondSeen
  obtain ⟨owner, target, resolved⟩ := accessSeen
  have listing : Hierarchy.Listing covariantPool.link.1.classes access.owner [] [1] := by
    rw [owner]
    refine ⟨⟨by simp, by simp, ?_⟩, ?_, by simp⟩
    · simp [Hierarchy.superclass, callerStands, callerSeen.1]
    · simp [Hierarchy.listed, callerStands, callerSeen.2.1]
  have notOverridden : ¬ AccessTarget.Overridden covariantPool.link.1.classes
      covariantPool.link.1.members access.target [1] 1 := by
    rintro ⟨other, isCallee, different, _⟩
    exact different (List.mem_singleton.mp isCallee)
  have isMatch : access.target.Matches second := by
    rw [target]
    exact ⟨secondSeen.2.1, secondSeen.2.2.1, by rw [secondSeen.2.2.2.1]⟩
  have isAbstract := prefers 0 access accessStands 1 resolved [] [1] first listing firstStands
    (by simp [firstSeen.1]) firstSeen.2.2.2.2 1 (by simp) notOverridden callee 2 second
    calleeStands (by simp [calleeSeen.2.2]) secondStands isMatch
  simp [secondSeen.2.2.2.2] at isAbstract

/-- An access to a field or method is left unresolved exactly where no ancestor declares a
match, or where the line declares none and all other declarations are overridden. The latter
takes a circle of ancestors. -/
def ClassGraph.UnresolvedExactly (graph : ClassGraph) : Prop :=
  Throughout graph.accesses fun _ access => access.kind ≠ .constructorCall →
    ∃ line others, Hierarchy.Listing graph.classes access.owner line others ∧
      (access.resolved = none ↔
        (∀ id ∈ access.owner :: Hierarchy.listed graph.classes access.owner,
          ¬ AccessTarget.Declares graph.classes graph.members access.target id) ∨
        (∀ id ∈ access.owner :: line,
          ¬ AccessTarget.Declares graph.classes graph.members access.target id) ∧
        AccessTarget.Deadlocked graph.classes graph.members access.target others) ∧
      (AccessTarget.Deadlocked graph.classes graph.members access.target others →
        ∃ id ∈ others, AccessTarget.Declares graph.classes graph.members access.target id ∧
          TransGen (Hierarchy.Extends graph.classes) id id)

/-- In the graph of any pool, this is when an access is unresolved. So in a graph without
circles every access to a declared field or method is resolved. -/
theorem ClassPool.link_unresolved_exactly (pool : ClassPool) :
    pool.link.1.UnresolvedExactly := by
  intro id access stands inheritable
  rw [link_graph] at stands ⊢
  obtain ⟨line, others, listing⟩ := Link.graph_access_listing readable_of_mem_typedRecords stands
  refine ⟨line, others, listing, ?_, AccessTarget.Deadlocked.exists_circle
    (Link.graph_reached readable_of_mem_typedRecords)⟩
  rw [Link.graph_resolved stands, Option.map_eq_none_iff]
  exact AccessTarget.resolve_eq_none_iff_deadlocked listing Link.graph_owned inheritable

/-- Two interfaces that extend each other and both declare `m`. -/
def circlePool : ClassPool :=
  samplePool
    [sampleClass "C" 0x0021 ["I"] [sampleCaller "()V"],
      sampleClass "I" 0x0600 ["J"] [sampleMethod "m" "()V" 0x0401 []],
      sampleClass "J" 0x0600 ["I"] [sampleMethod "m" "()V" 0x0401 []]]

/-- On a circle of interfaces an access is left unresolved though an ancestor declares a
match. -/
theorem circle_unresolved :
    ∃ access ∈ circlePool.link.1.accesses, access.kind = .methodCall ∧ access.resolved = none ∧
      ∃ id ∈ Hierarchy.listed circlePool.link.1.classes access.owner,
        AccessTarget.Declares circlePool.link.1.classes circlePool.link.1.members access.target
          id := by
  have accesses : circlePool.link.1.accesses.map
      (fun access => (access.owner, access.target, access.resolved)) =
        #[(0, ⟨.methodCall, "m", "()V"⟩, none)] := by decide +kernel
  have classes : circlePool.link.1.classes.map (fun node => (node.ancestors, node.members)) =
      #[([1, 2], [0]), ([2], [1]), ([1], [2])] := by decide +kernel
  have members : circlePool.link.1.members.map
      (fun member => (member.kind, member.name, member.descriptor)) =
        #[(.method, "r", "()V"), (.method, "m", "()V"), (.method, "m", "()V")] := by decide +kernel
  obtain ⟨access, accessStands, accessSeen⟩ := exists_getElem?_of_map accesses 0 (by decide)
  obtain ⟨caller, callerStands, callerSeen⟩ := exists_getElem?_of_map classes 0 (by decide)
  obtain ⟨callee, calleeStands, calleeSeen⟩ := exists_getElem?_of_map classes 1 (by decide)
  obtain ⟨member, memberStands, memberSeen⟩ := exists_getElem?_of_map members 1 (by decide)
  simp only [List.getElem_toArray, List.getElem_cons_zero, List.getElem_cons_succ,
    Prod.mk.injEq] at accessSeen callerSeen calleeSeen memberSeen
  obtain ⟨owner, target, resolved⟩ := accessSeen
  refine ⟨access, Array.mem_of_getElem? accessStands, congrArg AccessTarget.kind target, resolved,
    1, ?_, callee, 1, member, calleeStands, ?_, memberStands, ?_⟩
  · simp [Hierarchy.listed, owner, callerStands, callerSeen.1]
  · simp [calleeSeen.2]
  · rw [target]
    exact ⟨memberSeen.1, memberSeen.2.1, by rw [memberSeen.2.2]⟩

end ClassAtlas
