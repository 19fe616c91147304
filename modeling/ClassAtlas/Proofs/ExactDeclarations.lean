import ClassAtlas.Proofs.AccessTargets

/-!
# Exact declarations

An access gives the name and the descriptor of the member it means, and its class may declare
exactly that member. The search goes by less, though: fields are matched by name, and methods by
name and parameters, so that a method is found where an overriding one returns something else.
Among several matches of one class the search takes the one listed first, and that need not be the
exact one. Here it is shown when it is. A constructor is always found exactly, because constructors
are matched by the whole descriptor. A field or method is found exactly where no match with another
descriptor is listed before it. In any case what is found is declared by the class itself.
-/

namespace ClassAtlas

/-- The kind of member that an access is about. -/
def AccessKind.memberKind : AccessKind → MemberKind
  | getField | setField => .field
  | methodCall => .method
  | constructorCall => .constructor

namespace AccessTarget

/-- A member is exactly what an access names, by kind, name and descriptor. -/
structure Exact (target : AccessTarget) (member : Member) : Prop where
  kind : member.kind = target.kind.memberKind
  name : member.name = target.name
  descriptor : member.descriptor = target.descriptor

variable {classes : Array ClassNode} {members : Array Member} {target : AccessTarget}
  {member : Member}

/-- What a match has in common with what the access names: the kind, and the descriptor of a
constructor, the name of a field, or the name and the parameters of a method. -/
theorem matches_iff : target.Matches member ↔
    member.kind = target.kind.memberKind ∧
    (target.kind ≠ .constructorCall → member.name = target.name) ∧
    (target.kind = .methodCall → MethodDescriptor.parameterPart member.descriptor =
      MethodDescriptor.parameterPart target.descriptor) ∧
    (target.kind = .constructorCall → member.descriptor = target.descriptor) := by
  cases kind : target.kind <;> simp [Matches, kind, AccessKind.memberKind]

/-- A member of the very name and descriptor matches. -/
theorem Exact.isMatch (exact : target.Exact member) : target.Matches member :=
  matches_iff.mpr ⟨exact.kind, fun _ => exact.name, fun _ => by rw [exact.descriptor],
    fun _ => exact.descriptor⟩

/-- A class lists exactly what an access names among its members. -/
def DeclaresExactly (classes : Array ClassNode) (members : Array Member) (target : AccessTarget)
    (id : ClassId) : Prop :=
  ∃ node number member, classes[id]? = some node ∧ number ∈ node.members ∧
    members[number]? = some member ∧ target.Exact member

/-- A class lists exactly what an access names, and before it no match with another descriptor. -/
def DeclaresExactlyFirst (classes : Array ClassNode) (members : Array Member)
    (target : AccessTarget) (id : ClassId) : Prop :=
  ∃ node before number after member, classes[id]? = some node ∧
    node.members = before ++ number :: after ∧ members[number]? = some member ∧
    target.Exact member ∧
    ∀ earlier ∈ before, ∀ other, members[earlier]? = some other → target.Matches other →
      other.descriptor = target.descriptor

/-- A class that declares the exact member declares a match. -/
theorem DeclaresExactly.declares {id : ClassId}
    (declares : DeclaresExactly classes members target id) :
    Declares classes members target id := by
  obtain ⟨node, number, member, stands, listed, found, exact⟩ := declares
  exact ⟨node, number, member, stands, listed, found, exact.isMatch⟩

/-- The first match of a class is any other match or is listed before it. -/
theorem DeclaresFirst.mem_of_matches {id : ClassId} {number : MemberId}
    (first : DeclaresFirst classes members target id number member) {node : ClassNode}
    (stands : classes[id]? = some node) {lead rest : List MemberId} {place : MemberId}
    (split : node.members = lead ++ place :: rest) {other : Member}
    (found : members[place]? = some other) (isMatch : target.Matches other) :
    number ∈ lead ++ [place] := by
  obtain ⟨sameNode, before, after, standsToo, splitToo, _, _, noneBefore⟩ := first
  cases stands.symm.trans standsToo
  -- The list is split at two places, of which the second does not come before the first.
  rcases List.append_eq_append_iff.mp (splitToo.symm.trans split) with
    ⟨between, rfl, later⟩ | ⟨between, rfl, later⟩
  · cases between <;> cases later <;> simp
  · cases between with
    | nil =>
      cases later
      simp
    | cons head tail =>
      cases later
      exact absurd isMatch (noneBefore place (by simp) other found)

/-- The first match of a class is exact just if no match with another descriptor comes before an
exact one. -/
theorem DeclaresFirst.exact_iff {id : ClassId} {number : MemberId}
    (first : DeclaresFirst classes members target id number member)
    (named : member.name = target.name) :
    target.Exact member ↔ DeclaresExactlyFirst classes members target id := by
  have ⟨node, before, after, stands, split, found, isMatch, noneBefore⟩ := first
  constructor
  · intro exact
    refine ⟨node, before, number, after, member, stands, split, found, exact, ?_⟩
    intro earlier listed other isOther otherMatches
    exact absurd otherMatches (noneBefore earlier listed other isOther)
  · rintro ⟨node, lead, place, rest, declared, stands, split, isDeclared, exact, agree⟩
    have listed := first.mem_of_matches stands split isDeclared exact.isMatch
    rcases List.mem_append.mp listed with earlier | isPlace
    · have descriptor := agree number earlier member found isMatch
      exact ⟨(matches_iff.mp isMatch).1, named, descriptor⟩
    · cases List.mem_singleton.mp isPlace
      cases found.symm.trans isDeclared
      exact exact

/-- What the named class itself declares is found there. -/
theorem resolve_of_declares {owner : ClassId} (declares : Declares classes members target owner) :
    ∃ number member, DeclaresFirst classes members target owner number member ∧
      resolve classes members owner target = some member := by
  cases own : declaredIn classes members target owner with
  | none => exact absurd declares (declaredIn_eq_none_iff.mp own)
  | some member =>
    obtain ⟨number, first⟩ := declaredIn_eq_some_iff.mp own
    exact ⟨number, member, first, by rw [resolve, own]⟩

end AccessTarget

/-- Only methods of one name are constructors. -/
theorem MemberKind.ofMethodName_eq_constructor {name : String}
    (isConstructor : ofMethodName name = .constructor) : name = "<init>" := by
  by_contra other
  rw [ofMethodName, if_neg other] at isConstructor
  split at isConstructor <;> cases isConstructor

/-- The constructors that a record declares have this name. -/
theorem Declarations.name_of_constructor (table : ClassTable) (first : MemberId)
    (typed : TypedRecord) {member : Member}
    (declared : member ∈ (ofTyped table first typed).members)
    (isConstructor : member.kind = .constructor) : member.name = "<init>" := by
  rcases mem_ofTyped table first typed declared with ⟨field, types, _, same⟩ |
    ⟨method, types, _, same⟩
  · rw [same] at isConstructor
    cases isConstructor
  · rw [same] at isConstructor ⊢
    exact MemberKind.ofMethodName_eq_constructor isConstructor

/-- All constructors of a graph have the same name. -/
theorem Link.name_of_constructor {records : List TypedRecord} {missing : List String}
    {number : MemberId} {member : Member}
    (stands : (graph records missing).members[number]? = some member)
    (isConstructor : member.kind = .constructor) : member.name = "<init>" := by
  obtain ⟨outgoing, same⟩ := @graph_members_map records missing
  rw [same, Array.getElem?_map, Option.map_eq_some_iff] at stands
  obtain ⟨declared, atNumber, rfl⟩ := stands
  obtain ⟨typed, declarations, listed, inRow⟩ := exists_row_of_getElem?_allMembers atNumber
  obtain ⟨_, start, rfl⟩ := mem_rows listed
  have named : declared.name = "<init>" :=
    Declarations.name_of_constructor _ _ _ inRow isConstructor
  exact named

/-- An access leads to the first match of the class it names, a member of the accessed kind and
name that this class declares itself. -/
structure ClassGraph.LeadsToOwn (graph : ClassGraph) (access : AccessEdge) (number : MemberId)
    (member : Member) : Prop where
  resolved : access.resolved = some number
  first : AccessTarget.DeclaresFirst graph.classes graph.members access.target access.owner
    number member
  owner : member.owner = access.owner
  kind : member.kind = access.kind.memberKind
  name : member.name = access.name
  exact_iff : access.target.Exact member ↔
    AccessTarget.DeclaresExactlyFirst graph.classes graph.members access.target access.owner
  construction : access.kind = .constructorCall → access.target.Exact member

/-- Every access that names exactly a member of its class leads to a member of that class. -/
def ClassGraph.ResolvesDeclared (graph : ClassGraph) : Prop :=
  Throughout graph.accesses fun _ access =>
    AccessTarget.DeclaresExactly graph.classes graph.members access.target access.owner →
      ∃ number member, graph.LeadsToOwn access number member

/-- In the graph of any pool, what a class declares exactly is not looked for elsewhere: the
access leads to the first match of the class, which is the exact one for all constructors, and
for fields and methods just if no match with another descriptor is listed before. -/
theorem ClassPool.link_resolves_declared (pool : ClassPool) : pool.link.1.ResolvesDeclared := by
  intro id access stands declares
  rw [link_graph] at stands declares ⊢
  obtain ⟨number, member, first, found⟩ :=
    AccessTarget.resolve_of_declares declares.declares
  have owned := Link.graph_owned access.owner member
    (AccessTarget.declaredIn_eq_some_iff.mpr ⟨number, first⟩)
  have ⟨_, _, _, _, _, atNumber, isMatch, _⟩ := first
  obtain ⟨kind, inheritedName, _, constructorDescriptor⟩ := AccessTarget.matches_iff.mp isMatch
  have named : member.name = access.target.name := by
    by_cases construction : access.target.kind = .constructorCall
    · -- Both members are constructors, and a constructor has no name of its own.
      obtain ⟨_, place, exactly, _, _, atPlace, exact⟩ := declares
      have isConstructor : access.target.kind.memberKind = .constructor := by rw [construction]; rfl
      rw [← exact.name, Link.name_of_constructor atNumber (kind.trans isConstructor),
        Link.name_of_constructor atPlace (exact.kind.trans isConstructor)]
    · exact inheritedName construction
  have resolved : access.resolved = some number := by
    rw [Link.graph_resolved stands, found, Option.map_some,
      Link.id_of_getElem?_graph_members atNumber]
  exact ⟨number, member,
    { resolved, first, owner := owned, kind, name := named
      exact_iff := first.exact_iff named
      construction := fun construction => ⟨kind, named, constructorDescriptor construction⟩ }⟩

/-- More than that: accesses of a kind always lead to what their class declares exactly. -/
def ClassGraph.PrefersExact (graph : ClassGraph) (kind : AccessKind) : Prop :=
  Throughout graph.accesses fun _ access => access.kind = kind →
    AccessTarget.DeclaresExactly graph.classes graph.members access.target access.owner →
      ∃ number ∈ access.resolved, ∃ member, graph.members[number]? = some member ∧
        access.target.Exact member

/-- To refute it, one access is enough that leads to a member with another descriptor. -/
theorem ClassGraph.not_prefersExact {graph : ClassGraph} {id : AccessId} {access : AccessEdge}
    (stands : graph.accesses[id]? = some access) {owner : ClassId} {target : AccessTarget}
    {number : MemberId}
    (seen : (access.owner, access.target, access.resolved) = (owner, target, some number))
    (declares : AccessTarget.DeclaresExactly graph.classes graph.members target owner)
    {member : Member} (atNumber : graph.members[number]? = some member)
    (different : member.descriptor ≠ target.descriptor) : ¬ graph.PrefersExact target.kind := by
  simp only [Prod.mk.injEq] at seen
  obtain ⟨rfl, rfl, resolved⟩ := seen
  intro prefers
  obtain ⟨place, isResolved, found, atPlace, exact⟩ := prefers id access stands rfl declares
  cases resolved.symm.trans isResolved
  cases atNumber.symm.trans atPlace
  exact different exact.descriptor

/-- A class with two fields `f` of different types and two methods `m` that return different
types, and a method that accesses the second ones. -/
def overloadedPool : ClassPool :=
  samplePool
    [{ sampleClass "C" 0x0021 []
        [sampleMethod "r" "()V" 0x0001
          [{ kind := .getField, owner := "C", name := "f", descriptor := "J", line := 0 },
            { kind := .setField, owner := "C", name := "f", descriptor := "J", line := 0 },
            { kind := .methodCall, owner := "C", name := "m", descriptor := "()I", line := 0 }],
          sampleMethod "m" "()J" 0x0001 [], sampleMethod "m" "()I" 0x0001 []] with
      fields := [{ name := "f", descriptor := "I", flags := 0x0001, annotations := [] },
        { name := "f", descriptor := "J", flags := 0x0001, annotations := [] }] }]

/-- A class that declares the exact field or method second is not searched that far. -/
theorem overloaded_not_prefersExact :
    ¬ overloadedPool.link.1.PrefersExact .getField ∧
      ¬ overloadedPool.link.1.PrefersExact .setField ∧
      ¬ overloadedPool.link.1.PrefersExact .methodCall := by
  have accesses : overloadedPool.link.1.accesses.map
      (fun access => (access.owner, access.target, access.resolved)) =
        #[(0, ⟨.getField, "f", "J"⟩, some 0), (0, ⟨.setField, "f", "J"⟩, some 0),
          (0, ⟨.methodCall, "m", "()I"⟩, some 3)] := by decide +kernel
  have classes : overloadedPool.link.1.classes.map ClassNode.members = #[[0, 1, 2, 3, 4]] := by
    decide +kernel
  have members : overloadedPool.link.1.members.map
      (fun member => (member.kind, member.name, member.descriptor)) =
        #[(.field, "f", "I"), (.field, "f", "J"), (.method, "r", "()V"), (.method, "m", "()J"),
          (.method, "m", "()I")] := by decide +kernel
  obtain ⟨node, nodeStands, listed⟩ := exists_getElem?_of_map classes 0 (by decide)
  obtain ⟨field, fieldStands, fieldSeen⟩ := exists_getElem?_of_map members 0 (by decide)
  obtain ⟨exactField, exactFieldStands, exactFieldSeen⟩ :=
    exists_getElem?_of_map members 1 (by decide)
  obtain ⟨method, methodStands, methodSeen⟩ := exists_getElem?_of_map members 3 (by decide)
  obtain ⟨exactMethod, exactMethodStands, exactMethodSeen⟩ :=
    exists_getElem?_of_map members 4 (by decide)
  obtain ⟨reading, readingStands, readingSeen⟩ := exists_getElem?_of_map accesses 0 (by decide)
  obtain ⟨writing, writingStands, writingSeen⟩ := exists_getElem?_of_map accesses 1 (by decide)
  obtain ⟨call, callStands, callSeen⟩ := exists_getElem?_of_map accesses 2 (by decide)
  simp only [List.getElem_toArray, List.getElem_cons_zero, List.getElem_cons_succ,
    Prod.mk.injEq] at listed fieldSeen exactFieldSeen methodSeen exactMethodSeen
  have fieldDeclared (kind : AccessKind) (isField : kind.memberKind = .field) :
      AccessTarget.DeclaresExactly overloadedPool.link.1.classes overloadedPool.link.1.members
        ⟨kind, "f", "J"⟩ 0 :=
    ⟨node, 1, exactField, nodeStands, by simp [listed], exactFieldStands,
      ⟨exactFieldSeen.1.trans isField.symm, exactFieldSeen.2.1, exactFieldSeen.2.2⟩⟩
  have methodDeclared :
      AccessTarget.DeclaresExactly overloadedPool.link.1.classes overloadedPool.link.1.members
        ⟨.methodCall, "m", "()I"⟩ 0 :=
    ⟨node, 4, exactMethod, nodeStands, by simp [listed], exactMethodStands,
      ⟨exactMethodSeen.1, exactMethodSeen.2.1, exactMethodSeen.2.2⟩⟩
  refine ⟨?reading, ?writing, ?call⟩
  case reading =>
    exact ClassGraph.not_prefersExact readingStands readingSeen (fieldDeclared _ rfl) fieldStands
      (by simp [fieldSeen])
  case writing =>
    exact ClassGraph.not_prefersExact writingStands writingSeen (fieldDeclared _ rfl) fieldStands
      (by simp [fieldSeen])
  case call =>
    exact ClassGraph.not_prefersExact callStands callSeen methodDeclared methodStands
      (by simp [methodSeen])

end ClassAtlas
