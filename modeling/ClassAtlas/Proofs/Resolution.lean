import ClassAtlas.Graph.Resolution
import ClassAtlas.Proofs.Ancestors

/-!
# What an access resolves to

The search for the target of an access is put into terms that do not mention how it runs:
which members match, which class declares a match, and which match it declares first. The
line that is followed through the listed ancestors is the superclass line, because what is
listed after the line is neither on it nor its start. Of the declarations off the line the
search picks one that no other overrides, if there is one.

Here classes and members are any arrays. That the members listed by a class belong to it is
a fact about linking, and is used only where overriding is read as a fact about classes.
-/

namespace ClassAtlas

open Reachability

namespace Hierarchy

/-- Following superclasses through a list that starts with the superclass line gives the
line, as nothing after the line is on it or its start. -/
theorem Listing.lineAlong_eq {classes : Array ClassNode} {start : ClassId}
    {line others : List ClassId} (listing : Listing classes start line others) :
    lineAlong classes (listed classes start) (superclass classes start) = line := by
  -- Along the line, the class reached last takes the place of the start.
  have follow (lower : ClassId) (rest : List ClassId)
      (linked : (lower :: rest).IsChain fun below above => superclass classes below = some above)
      (ended : ∀ upper, superclass classes ((lower :: rest).getLast (List.cons_ne_nil lower rest)) =
        some upper → upper ∈ start :: line) :
      lineAlong classes (rest ++ others) (superclass classes lower) = rest := by
    induction rest generalizing lower with
    | nil =>
      cases others with
      | nil => simp [lineAlong]
      | cons first later =>
        cases step : superclass classes lower with
        | none => simp [lineAlong]
        | some upper =>
          have different : upper ≠ first := by
            rintro rfl
            exact listing.apart upper List.mem_cons_self (ended upper step)
          simp [lineAlong, different]
    | cons above rest inductionHypothesis =>
      rw [List.isChain_cons_cons] at linked
      have onward := inductionHypothesis above linked.2 fun upper step =>
        ended upper (by rwa [List.getLast_cons (List.cons_ne_nil above rest)])
      simp [lineAlong, linked.1, onward]
  rw [listing.split]
  exact follow start line listing.isLine.linked listing.isLine.ended

end Hierarchy

namespace AccessTarget

/-- A member is what an access looks for: a field of its name, a constructor with its
descriptor, or a method of its name whose descriptor has the same parameter part. -/
def Matches (target : AccessTarget) (member : Member) : Prop :=
  match target.kind with
  | .getField | .setField => member.kind = .field ∧ member.name = target.name
  | .constructorCall => member.kind = .constructor ∧ member.descriptor = target.descriptor
  | .methodCall => member.kind = .method ∧ member.name = target.name ∧
      MethodDescriptor.parameterPart member.descriptor =
        MethodDescriptor.parameterPart target.descriptor

/-- The test for a match is exact. -/
theorem accepts_iff {target : AccessTarget} {member : Member} :
    target.accepts member = true ↔ target.Matches member := by
  cases kind : target.kind <;> simp [accepts, Matches, kind, and_assoc]

variable (classes : Array ClassNode) (members : Array Member) (target : AccessTarget)

/-- A class lists a match among its members. -/
def Declares (id : ClassId) : Prop :=
  ∃ node number member, classes[id]? = some node ∧ number ∈ node.members ∧
    members[number]? = some member ∧ target.Matches member

/-- A member is the first match that a class lists. -/
def DeclaresFirst (id : ClassId) (number : MemberId) (member : Member) : Prop :=
  ∃ node before after, classes[id]? = some node ∧ node.members = before ++ number :: after ∧
    members[number]? = some member ∧ target.Matches member ∧
    ∀ earlier ∈ before, ∀ other, members[earlier]? = some other → ¬ target.Matches other

variable {classes members target}

/-- A class with a first member for the target declares one. -/
theorem DeclaresFirst.declares {id : ClassId} {number : MemberId} {member : Member}
    (first : DeclaresFirst classes members target id number member) :
    Declares classes members target id := by
  obtain ⟨node, before, after, stands, split, found, isMatch, _⟩ := first
  exact ⟨node, number, member, stands, by simp [split], found, isMatch⟩

/-- The search in one class finds the first match it lists. -/
theorem declaredIn_eq_some_iff {id : ClassId} {member : Member} :
    declaredIn classes members target id = some member ↔
      ∃ number, DeclaresFirst classes members target id number member := by
  cases stands : classes[id]? with
  | none => simp [declaredIn, DeclaresFirst, stands]
  | some node =>
    simp only [declaredIn, stands, Option.map_some, Option.getD_some, List.findSome?_eq_some_iff,
      Option.filter_eq_some_iff, Option.filter_eq_none_iff, accepts_iff, DeclaresFirst,
      Option.some.injEq]
    constructor
    · rintro ⟨before, number, after, split, ⟨found, isMatch⟩, none⟩
      exact ⟨number, node, before, after, rfl, split, found, isMatch, none⟩
    · rintro ⟨number, _, before, after, rfl, split, found, isMatch, none⟩
      exact ⟨before, number, after, split, ⟨found, isMatch⟩, none⟩

/-- The search in one class fails only where it lists no match. -/
theorem declaredIn_eq_none_iff {id : ClassId} :
    declaredIn classes members target id = none ↔ ¬ Declares classes members target id := by
  cases stands : classes[id]? with
  | none => simp [declaredIn, Declares, stands]
  | some node =>
    simp only [declaredIn, stands, Option.map_some, Option.getD_some, List.findSome?_eq_none_iff,
      Option.filter_eq_none_iff, accepts_iff, Declares, Option.some.injEq]
    constructor
    · rintro none ⟨_, number, member, rfl, listed, found, isMatch⟩
      exact none number listed member found isMatch
    · intro none number listed member found isMatch
      exact none ⟨node, number, member, rfl, listed, found, isMatch⟩

/-- Among some classes, another one declares a match and has this one as an ancestor. -/
def Overridden (classes : Array ClassNode) (members : Array Member) (target : AccessTarget)
    (others : List ClassId) (id : ClassId) : Prop :=
  ∃ other ∈ others, other ≠ id ∧ Declares classes members target other ∧
    id ∈ Hierarchy.listed classes other

/-- Where found members belong to the classes they were found in, a candidate is set aside
exactly when its class is overridden. -/
theorem isOverridden_iff
    (owned : ∀ id member, declaredIn classes members target id = some member → member.owner = id)
    (others : List ClassId) (candidate : Member) :
    isOverridden classes (others.filterMap (declaredIn classes members target)) candidate = true ↔
      Overridden classes members target others candidate.owner := by
  simp only [isOverridden, List.any_eq_true, List.mem_filterMap, Bool.and_eq_true, bne_iff_ne,
    List.contains_eq_mem, decide_eq_true_eq]
  constructor
  · rintro ⟨member, ⟨other, present, found⟩, different, above⟩
    rw [owned other member found] at different above
    obtain ⟨number, first⟩ := declaredIn_eq_some_iff.mp found
    exact ⟨other, present, different, first.declares, above⟩
  · rintro ⟨other, present, different, declares, above⟩
    cases found : declaredIn classes members target other with
    | none => exact absurd declares (declaredIn_eq_none_iff.mp found)
    | some member =>
      have belongs := owned other member found
      exact ⟨member, ⟨other, present, found⟩, belongs ▸ different, belongs ▸ above⟩

/-- One candidate is never set aside, so that the short cut for it changes nothing. -/
theorem choose_eq (classes : Array ClassNode) (candidates : List Member) :
    choose classes candidates =
      (((candidates.filter fun candidate => !isOverridden classes candidates candidate).find?
        fun candidate => !candidate.isAbstract).or
      (candidates.filter fun candidate => !isOverridden classes candidates candidate).head?) := by
  match candidates with
  | [] => rfl
  | [candidate] =>
    have kept : isOverridden classes [candidate] candidate = false := by simp [isOverridden]
    cases abstractness : candidate.isAbstract <;> simp [choose, kept, abstractness]
  | first :: second :: rest => rfl

/-- The first entry with a property, or else the first: an entry without the property is
taken only if none has it, and no entry before the one taken is as good. -/
theorem find?_or_head?_eq_some {α : Type} {good : α → Bool} {entries : List α} {taken : α}
    (found : (entries.find? good).or entries.head? = some taken) :
    ∃ before after, entries = before ++ taken :: after ∧
      (good taken = false → ∀ entry ∈ entries, good entry = false) ∧
      ∀ entry ∈ before, good entry = false ∧ good taken = true := by
  cases first : entries.find? good with
  | some entry =>
    rw [first, Option.some_or, Option.some.injEq] at found
    subst found
    obtain ⟨holds, before, after, split, none⟩ := List.find?_eq_some_iff_append.mp first
    exact ⟨before, after, split, by simp [holds], fun other earlier =>
      ⟨by simpa using none other earlier, holds⟩⟩
  | none =>
    rw [first, Option.none_or] at found
    obtain ⟨rest, split⟩ := List.head?_eq_some_iff.mp found
    refine ⟨[], rest, split, ?_, by simp⟩
    exact fun _ entry present => by simpa using List.find?_eq_none.mp first entry present

/-- What is chosen is not set aside. It is abstract only if all that are not set aside are,
and before it there are only worse ones. -/
theorem choose_eq_some {candidates : List Member} {member : Member}
    (chosen : choose classes candidates = some member) :
    ∃ before after, candidates = before ++ member :: after ∧
      isOverridden classes candidates member = false ∧
      (member.isAbstract = true → ∀ other ∈ candidates,
        isOverridden classes candidates other = false → other.isAbstract = true) ∧
      ∀ other ∈ before, isOverridden classes candidates other = false →
        other.isAbstract = true ∧ member.isAbstract = false := by
  rw [choose_eq] at chosen
  obtain ⟨keptBefore, keptAfter, kept, best, first⟩ := find?_or_head?_eq_some chosen
  obtain ⟨before, rest, split, beforeKept, restKept⟩ := List.filter_eq_append_iff.mp kept
  obtain ⟨skipped, after, restSplit, noneKept, keeps, _⟩ := List.filter_eq_cons_iff.mp restKept
  refine ⟨before ++ skipped, after, by simp [split, restSplit], by simpa using keeps, ?_, ?_⟩
  · intro isAbstract other present notSet
    have among : other ∈ candidates.filter fun candidate =>
        !isOverridden classes candidates candidate :=
      List.mem_filter.mpr ⟨present, by simp [notSet]⟩
    simpa using best (by simp [isAbstract]) other among
  · intro other earlier notSet
    rcases List.mem_append.mp earlier with early | late
    · have among : other ∈ keptBefore := by
        rw [← beforeKept]
        exact List.mem_filter.mpr ⟨early, by simp [notSet]⟩
      simpa using first other among
    · exact absurd (by simp [notSet]) (noneKept other late)

/-- Nothing is chosen only where every candidate is set aside. -/
theorem choose_eq_none_iff {candidates : List Member} :
    choose classes candidates = none ↔
      ∀ candidate ∈ candidates, isOverridden classes candidates candidate = true := by
  rw [choose_eq, Option.or_eq_none_iff, List.head?_eq_none_iff, List.filter_eq_nil_iff]
  constructor
  · rintro ⟨_, none⟩ candidate present
    simpa using none candidate present
  · intro all
    refine ⟨?_, fun candidate present => by simp [all candidate present]⟩
    rw [List.find?_eq_none]
    intro candidate kept
    obtain ⟨present, notSet⟩ := List.mem_filter.mp kept
    simp [all candidate present] at notSet

/-- The rule for the member that an access means: the class that is named declares it, or
else the nearest class of its superclass line that declares a match, or else another
ancestor. A class stands for the first match it lists. Among the other ancestors one that is
not overridden is taken, one with a match that is not abstract before one whose match is
abstract, and the earlier before the later. -/
inductive Finds (classes : Array ClassNode) (members : Array Member) (target : AccessTarget)
    (owner : ClassId) (line others : List ClassId) : ClassId → MemberId → Member → Prop
  | own {number : MemberId} {member : Member}
      (declared : DeclaresFirst classes members target owner number member) :
      Finds classes members target owner line others owner number member
  | inherited {before after : List ClassId} {declaring : ClassId} {number : MemberId}
      {member : Member} (inheritable : target.kind ≠ .constructorCall)
      (place : line = before ++ declaring :: after)
      (nearer : ∀ id ∈ owner :: before, ¬ Declares classes members target id)
      (declared : DeclaresFirst classes members target declaring number member) :
      Finds classes members target owner line others declaring number member
  | chosen {before after : List ClassId} {declaring : ClassId} {number : MemberId}
      {member : Member} (inheritable : target.kind ≠ .constructorCall)
      (place : others = before ++ declaring :: after)
      (nearer : ∀ id ∈ owner :: line, ¬ Declares classes members target id)
      (declared : DeclaresFirst classes members target declaring number member)
      (mostDerived : ¬ Overridden classes members target others declaring)
      (preferred : member.isAbstract = true → ∀ other ∈ others,
        ¬ Overridden classes members target others other → ∀ place found,
          DeclaresFirst classes members target other place found → found.isAbstract = true)
      (earliest : ∀ earlier ∈ before, ¬ Overridden classes members target others earlier →
        ∀ place found, DeclaresFirst classes members target earlier place found →
          found.isAbstract = true ∧ member.isAbstract = false) :
      Finds classes members target owner line others declaring number member

/-- What an access resolves to is one of the members. -/
theorem exists_number_of_resolve {owner : ClassId} {member : Member}
    (resolved : resolve classes members owner target = some member) :
    ∃ number : MemberId, members[number]? = some member := by
  have ofClass {id : ClassId} {found : Member}
      (declared : declaredIn classes members target id = some found) :
      ∃ number : MemberId, members[number]? = some found := by
    obtain ⟨number, _, _, _, _, _, stands, _⟩ := declaredIn_eq_some_iff.mp declared
    exact ⟨number, stands⟩
  rw [resolve] at resolved
  split at resolved
  · rename_i own
    exact ofClass (resolved ▸ own)
  split at resolved
  · simp at resolved
  dsimp only at resolved
  split at resolved
  · rename_i onLine
    obtain ⟨_, _, _, _, here, _⟩ := List.findSome?_eq_some_iff.mp (resolved ▸ onLine)
    exact ofClass here
  · obtain ⟨_, _, split, _⟩ := choose_eq_some resolved
    have chosen : member ∈ List.filterMap (declaredIn classes members target) _ :=
      split ▸ List.mem_append_right _ List.mem_cons_self
    obtain ⟨_, _, here⟩ := List.mem_filterMap.mp chosen
    exact ofClass here

section Resolve

variable {owner : ClassId} {line others : List ClassId}

/-- The search in terms of the superclass line and the other ancestors. -/
theorem resolve_eq (listing : Hierarchy.Listing classes owner line others) :
    resolve classes members owner target =
      (declaredIn classes members target owner).or
        (if target.kind = .constructorCall then none
        else (line.findSome? (declaredIn classes members target)).or
          (choose classes (others.filterMap (declaredIn classes members target)))) := by
  have along := listing.lineAlong_eq
  have rest : (Hierarchy.listed classes owner).drop line.length = others := by
    rw [listing.split, List.drop_left]
  rw [Hierarchy.listed] at along rest
  simp only [resolve, along, rest]
  cases declaredIn classes members target owner with
  | some member => rfl
  | none => cases line.findSome? (declaredIn classes members target) <;> rfl

/-- Among the ancestors off the line, the choice follows the rule. -/
theorem finds_of_choose
    (owned : ∀ id member, declaredIn classes members target id = some member → member.owner = id)
    (inheritable : target.kind ≠ .constructorCall)
    (nearer : ∀ id ∈ owner :: line, ¬ Declares classes members target id) {member : Member}
    (chosen : choose classes (others.filterMap (declaredIn classes members target)) =
      some member) :
    ∃ declaring number, Finds classes members target owner line others declaring number member := by
  obtain ⟨before, after, place, kept, best, first⟩ := choose_eq_some chosen
  obtain ⟨lower, rest, othersSplit, lowerFound, restFound⟩ := List.filterMap_eq_append_iff.mp place
  obtain ⟨skipped, declaring, upper, restSplit, noneFound, here, _⟩ :=
    List.filterMap_eq_cons_iff.mp restFound
  obtain ⟨number, declared⟩ := declaredIn_eq_some_iff.mp here
  -- A class is overridden exactly when the member found in it is set aside.
  have notSet {other : ClassId} {found : Member}
      (isFound : declaredIn classes members target other = some found)
      (notOverridden : ¬ Overridden classes members target others other) :
      isOverridden classes (others.filterMap (declaredIn classes members target)) found =
        false := by
    rw [← Bool.not_eq_true, isOverridden_iff owned, owned other found isFound]
    exact notOverridden
  have placeInOthers : others = (lower ++ skipped) ++ declaring :: upper := by
    simp [othersSplit, restSplit]
  refine ⟨declaring, number, .chosen inheritable placeInOthers nearer declared ?_ ?_ ?_⟩
  · rw [← owned declaring member here, ← isOverridden_iff owned, Bool.not_eq_true]
    exact kept
  · intro isAbstract other present notOverridden place found declares
    have isFound := declaredIn_eq_some_iff.mpr ⟨place, declares⟩
    exact best isAbstract found (List.mem_filterMap.mpr ⟨other, present, isFound⟩)
      (notSet isFound notOverridden)
  · intro earlier listed notOverridden place found declares
    have isFound := declaredIn_eq_some_iff.mpr ⟨place, declares⟩
    rcases List.mem_append.mp listed with early | late
    · have among : found ∈ before := by
        rw [← lowerFound]
        exact List.mem_filterMap.mpr ⟨earlier, early, isFound⟩
      exact first found among (notSet isFound notOverridden)
    · rw [noneFound earlier late] at isFound
      simp at isFound

/-- The search follows the rule. -/
theorem finds_of_resolve (listing : Hierarchy.Listing classes owner line others)
    (owned : ∀ id member, declaredIn classes members target id = some member → member.owner = id)
    {member : Member} (resolved : resolve classes members owner target = some member) :
    ∃ declaring number, Finds classes members target owner line others declaring number member := by
  rw [resolve_eq listing] at resolved
  cases own : declaredIn classes members target owner with
  | some found =>
    rw [own, Option.some_or, Option.some.injEq] at resolved
    obtain ⟨number, declared⟩ := declaredIn_eq_some_iff.mp (resolved ▸ own)
    exact ⟨owner, number, .own declared⟩
  | none =>
    have notOwn := declaredIn_eq_none_iff.mp own
    rw [own, Option.none_or] at resolved
    by_cases constructing : target.kind = .constructorCall
    · simp [constructing] at resolved
    rw [if_neg constructing] at resolved
    cases onLine : line.findSome? (declaredIn classes members target) with
    | some found =>
      rw [onLine, Option.some_or, Option.some.injEq] at resolved
      obtain ⟨before, declaring, after, place, here, none⟩ := List.findSome?_eq_some_iff.mp onLine
      obtain ⟨number, declared⟩ := declaredIn_eq_some_iff.mp (resolved ▸ here)
      refine ⟨declaring, number, .inherited constructing place ?_ declared⟩
      exact List.forall_mem_cons.mpr
        ⟨notOwn, fun nearer earlier => declaredIn_eq_none_iff.mp (none nearer earlier)⟩
    | none =>
      rw [onLine, Option.none_or] at resolved
      refine finds_of_choose owned constructing ?_ resolved
      exact List.forall_mem_cons.mpr ⟨notOwn, fun upper listed =>
        declaredIn_eq_none_iff.mp (List.findSome?_eq_none_iff.mp onLine upper listed)⟩

/-- An access to a field or method stays unresolved exactly when neither the named class nor
its superclass line declares a match and every other ancestor that does is overridden. -/
theorem resolve_eq_none_iff (listing : Hierarchy.Listing classes owner line others)
    (owned : ∀ id member, declaredIn classes members target id = some member → member.owner = id)
    (inheritable : target.kind ≠ .constructorCall) :
    resolve classes members owner target = none ↔
      (∀ id ∈ owner :: line, ¬ Declares classes members target id) ∧
      ∀ other ∈ others, Declares classes members target other →
        Overridden classes members target others other := by
  rw [resolve_eq listing]
  have chosen : choose classes (others.filterMap (declaredIn classes members target)) = none ↔
      ∀ other ∈ others, Declares classes members target other →
        Overridden classes members target others other := by
    rw [choose_eq_none_iff]
    constructor
    · intro all other present declares
      cases found : declaredIn classes members target other with
      | none => exact absurd declares (declaredIn_eq_none_iff.mp found)
      | some member =>
        rw [← owned other member found, ← isOverridden_iff owned]
        exact all member (List.mem_filterMap.mpr ⟨other, present, found⟩)
    · intro all member listed
      obtain ⟨other, present, found⟩ := List.mem_filterMap.mp listed
      obtain ⟨number, first⟩ := declaredIn_eq_some_iff.mp found
      rw [isOverridden_iff owned, owned other member found]
      exact all other present first.declares
  cases own : declaredIn classes members target owner with
  | some member =>
    obtain ⟨number, first⟩ := declaredIn_eq_some_iff.mp own
    simp [first.declares]
  | none =>
    have notOwn := declaredIn_eq_none_iff.mp own
    cases onLine : line.findSome? (declaredIn classes members target) with
    | some member =>
      obtain ⟨before, upper, after, place, here, _⟩ := List.findSome?_eq_some_iff.mp onLine
      obtain ⟨number, first⟩ := declaredIn_eq_some_iff.mp here
      have listed : upper ∈ line := by simp [place]
      simp only [if_neg inheritable, Option.none_or, Option.some_or, reduceCtorEq, false_iff]
      exact fun none => none.1 upper (List.mem_cons_of_mem owner listed) first.declares
    | none =>
      have nearer : ∀ id ∈ owner :: line, ¬ Declares classes members target id :=
        List.forall_mem_cons.mpr ⟨notOwn, fun upper listed =>
          declaredIn_eq_none_iff.mp (List.findSome?_eq_none_iff.mp onLine upper listed)⟩
      simp only [if_neg inheritable, Option.none_or, chosen]
      exact ⟨fun all => ⟨nearer, all⟩, fun all => all.2⟩

end Resolve

section Unseen

/-- The search reads nothing of a class but its members, ancestors and superclass. -/
theorem resolve_congr {left right : Array ClassNode}
    (sameMembers : ∀ id : ClassId,
      left[id]?.map ClassNode.members = right[id]?.map ClassNode.members)
    (sameAncestors : ∀ id : ClassId,
      left[id]?.map ClassNode.ancestors = right[id]?.map ClassNode.ancestors)
    (sameSuperclass : Hierarchy.superclass left = Hierarchy.superclass right) (owner : ClassId) :
    resolve left members owner target = resolve right members owner target := by
  have sameDeclared : declaredIn left members target = declaredIn right members target := by
    funext id
    rw [declaredIn, declaredIn, sameMembers]
  have sameChoice : choose left = choose right := by
    funext candidates
    simp only [choose_eq, isOverridden, sameAncestors]
  have sameLine (ids : List ClassId) (next : Option ClassId) :
      Hierarchy.lineAlong left ids next = Hierarchy.lineAlong right ids next := by
    induction ids generalizing next with
    | nil => cases next <;> rfl
    | cons first rest inductionHypothesis =>
      cases next with
      | none => rfl
      | some id => simp only [Hierarchy.lineAlong, sameSuperclass, inductionHypothesis]
  simp only [resolve, sameDeclared, sameChoice, sameLine, sameAncestors, sameSuperclass]

variable {change : Member → Member}

/-- Changing members in what the target does not look at changes candidates alike. -/
theorem declaredIn_map (accepted : ∀ member, target.accepts (change member) = target.accepts member)
    (id : ClassId) :
    declaredIn classes (members.map change) target id =
      (declaredIn classes members target id).map change := by
  have sameTest (number : MemberId) :
      (members.map change)[number]?.filter target.accepts =
        (members[number]?.filter target.accepts).map change := by
    cases found : members[number]? with
    | none => simp [found]
    | some member =>
      by_cases isMatch : target.accepts member <;>
        simp [found, Option.filter, accepted, isMatch]
  simp only [declaredIn, sameTest, List.map_findSome?]
  rfl

/-- Changing candidates in what the choice does not look at changes the chosen one alike. -/
theorem choose_map (owners : ∀ member, (change member).owner = member.owner)
    (abstractness : ∀ member, (change member).isAbstract = member.isAbstract)
    (candidates : List Member) :
    choose classes (candidates.map change) = (choose classes candidates).map change := by
  have sameOverriding (candidate : Member) :
      isOverridden classes (candidates.map change) (change candidate) =
        isOverridden classes candidates candidate := by
    simp [isOverridden, owners, Function.comp_def]
  simp [choose_eq, List.filter_map, sameOverriding, Function.comp_def, abstractness, Option.map_or]

/-- The search sees of a member whether it matches, its owner and whether it is abstract;
a change of the rest carries over to what is found. -/
theorem resolve_map (accepted : ∀ member, target.accepts (change member) = target.accepts member)
    (owners : ∀ member, (change member).owner = member.owner)
    (abstractness : ∀ member, (change member).isAbstract = member.isAbstract) (owner : ClassId) :
    resolve classes (members.map change) owner target =
      (resolve classes members owner target).map change := by
  have sameDeclared : declaredIn classes (members.map change) target =
      fun id => (declaredIn classes members target id).map change :=
    funext (declaredIn_map accepted)
  have sameFirst (ids : List ClassId) :
      ids.findSome? (fun id => (declaredIn classes members target id).map change) =
        (ids.findSome? (declaredIn classes members target)).map change := by
    rw [List.map_findSome?]
    rfl
  have sameCandidates (ids : List ClassId) :
      ids.filterMap (fun id => (declaredIn classes members target id).map change) =
        (ids.filterMap (declaredIn classes members target)).map change :=
    List.map_filterMap.symm
  simp only [resolve, sameDeclared, sameFirst, sameCandidates, choose_map owners abstractness]
  cases declaredIn classes members target owner with
  | some member => rfl
  | none =>
    by_cases constructing : target.kind = .constructorCall
    · simp [constructing]
    · simp only [Option.map_none, if_neg constructing]
      cases List.findSome? (declaredIn classes members target) _ <;> rfl

end Unseen

end AccessTarget

end ClassAtlas
