import ClassAtlas.Proofs.RecordReferences

/-!
# Dependencies of a class by itself

The dependencies of a class come out of a graph that all classes share: targets are numbers, the
innermost classes of arrays are found by following nodes, and the edges of a body stand in one list
with those of all others. None of this shows from outside. By name, a class depends on exactly
those classes that its own record refers to, arrays stripped and itself left out. So it does not
matter with what other records it is linked, nor which of the classes that it names were found.
-/

namespace ClassAtlas

/-- A type with a class inside all dimensions is no primitive type. -/
theorem TypeName.isPrimitive_of_base {type : TypeName} {name : String}
    (base : type.base = .object name) : type.isPrimitive = false := by
  cases type with
  | primitive kind => cases base
  | object name => rfl
  | array component => rfl

/-- With a type, the class inside all its dimensions is known. -/
theorem ClassTable.Knows.base {table : ClassTable} {type : TypeName} (known : table.Knows type)
    {name : String} (base : type.base = .object name) : table.Knows (.object name) := by
  induction type with
  | primitive kind => cases base
  | object given => exact base ▸ known
  | array component inductionHypothesis =>
    exact inductionHypothesis (fun part inside => known part (List.mem_append_left _ inside)) base

namespace ClassGraph

variable {graph : ClassGraph}

/-- The name that belongs to a number is that of its class. -/
theorem Names.className_eq {id : ClassId} {name : String} (named : graph.Names id name) :
    graph.className id = name := by
  rw [className, (named id).mpr rfl, Option.getD_some]

/-- Numbers are the same where names are. -/
theorem Names.name_eq_iff {left right : ClassId} {first second : String}
    (leftNamed : graph.Names left first) (rightNamed : graph.Names right second) :
    first = second ↔ left = right := by
  rw [← rightNamed left, (leftNamed left).mpr rfl, Option.some.injEq]

/-- A class of the name was made from a record. -/
def Links (graph : ClassGraph) (name : String) : Prop :=
  ∃ node ∈ graph.resolvedClasses, node.name = name

instance (graph : ClassGraph) (name : String) : Decidable (graph.Links name) :=
  inferInstanceAs (Decidable (∃ node ∈ graph.resolvedClasses, node.name = name))

/-- What the class of a name depends on, by names. -/
def dependenciesNamed (graph : ClassGraph) (name : String) :
    List (String × DependencyKind × Option Nat) :=
  (graph.classes.toList.filter fun node => node.name = name).flatMap fun node =>
    (graph.dependenciesOf node.id).map fun dependency =>
      (graph.className dependency.target, dependency.kind, dependency.line)

/-- The dependencies of a class are those of its references that lead elsewhere. -/
theorem mem_dependenciesNamed_iff (exact : graph.DependenciesExact)
    (numbered : Throughout graph.classes fun id node => node.id = id) {id : ClassId}
    {name : String} (named : graph.Names id name) {node : ClassNode}
    (stands : graph.classes[id]? = some node) {target : String} {kind : DependencyKind}
    {line : Option Nat} :
    (target, kind, line) ∈ graph.dependenciesNamed name ↔
      ∃ place ≠ id, graph.className place = target ∧ ∃ reference,
        node.Refers graph.members graph.accesses reference kind line ∧
          IsInnermost graph.classes reference place := by
  simp only [dependenciesNamed, List.mem_flatMap, List.mem_filter, Array.mem_toList_iff,
    decide_eq_true_eq, List.mem_map, exact.outgoing, exact.mem_iff, Prod.mk.injEq]
  constructor
  · rintro ⟨other, ⟨listed, sameName⟩, dependency, ⟨⟨different, origin, reference, atOrigin, refers,
      innermost⟩, isOrigin⟩, rfl, rfl, rfl⟩
    obtain ⟨place, atPlace⟩ := Array.mem_iff_getElem?.mp listed
    obtain rfl : place = id := (named place).mp (by rw [atPlace, Option.map_some, sameName])
    rw [numbered place other atPlace] at isOrigin
    rw [isOrigin, stands, Option.some.injEq] at atOrigin
    exact ⟨dependency.target, isOrigin ▸ different, rfl, reference, atOrigin ▸ refers, innermost⟩
  · rintro ⟨place, different, rfl, reference, refers, innermost⟩
    have sameName := (named id).mpr rfl
    rw [stands, Option.map_some, Option.some.injEq] at sameName
    refine ⟨node, ⟨Array.mem_of_getElem? stands, sameName⟩,
      { origin := id, target := place, kind, line },
      ⟨⟨different, node, reference, stands, refers, innermost⟩, ?_⟩, rfl, rfl, rfl⟩
    exact (numbered id node stands).symm

end ClassGraph

/-- A record depends on a class if it refers to the class or to an array of it, and does not
declare the class itself. -/
def ClassRecord.DependsOn (record : ClassRecord) (target : String) (kind : DependencyKind)
    (line : Option Nat) : Prop :=
  ∃ typed : TypedRecord, typed.entry.record = record ∧
    RecordTypes.ofRecord record = .ok typed.types ∧
      ∃ type, typed.Refers type kind line ∧ type.base = .object target ∧ target ≠ record.name

namespace ClassPool

variable {pool : ClassPool}

section Typed

variable (filed : pool.Filed) {typed : TypedRecord} (listed : typed ∈ pool.typedRecords)

include filed listed

/-- Whatever their numbers are, the references of the class of a record lead to the classes that
the record refers to. -/
theorem Filed.refers_innermost_iff {node : ClassNode}
    (stands : pool.link.1.classes[
      (Link.number pool.typedRecords pool.missingNames).id typed.types.this]? = some node)
    {place : ClassId} {kind : DependencyKind} {line : Option Nat} :
    (∃ reference, node.Refers pool.link.1.members pool.link.1.accesses reference kind line ∧
        IsInnermost pool.link.1.classes reference place) ↔
      ∃ type name, typed.Refers type kind line ∧ type.base = .object name ∧
        (Link.number pool.typedRecords pool.missingNames).id? (.object name) = some place := by
  obtain ⟨_, row⟩ := @Link.exists_row pool.typedRecords pool.missingNames typed listed
  obtain ⟨_, start, rfl⟩ := Link.mem_rows row
  have refersTo := @Link.refers_class_iff pool.typedRecords pool.missingNames filed.distinct typed
    start row (readable_of_mem_typedRecords typed listed) node stands
  have regular {type : TypeName} (refers : typed.Refers type kind line) : type.Regular := by
    have read := (mem_typedRecords_iff.mp listed).2
    exact ((RecordTypes.mem_mentions_iff read).mp refers.mentioned).isRead.regular
  constructor
  · rintro ⟨reference, refers, innermost⟩
    obtain ⟨type, isReferred, found⟩ := refersTo.mp refers
    obtain ⟨name, base, atPlace⟩ :=
      (isInnermost_iff_base (regular isReferred) found).mp innermost
    exact ⟨type, name, isReferred, base, atPlace⟩
  · rintro ⟨type, name, isReferred, base, atPlace⟩
    have known := Link.number_knows pool.typedRecords pool.missingNames listed type
      (List.mem_cons_of_mem _ isReferred.mentioned)
    have found := known.id?_eq (TypeName.isPrimitive_of_base base)
    exact ⟨_, refersTo.mpr ⟨type, isReferred, found⟩,
      (isInnermost_iff_base (regular isReferred) found).mpr ⟨name, base, atPlace⟩⟩

/-- The number of the type that a record declares is that of the class of its name. -/
theorem Filed.names_this :
    pool.link.1.Names ((Link.number pool.typedRecords pool.missingNames).id typed.types.this)
      typed.entry.record.name := by
  have named := Link.graph_names (@Link.id?_this _ pool.missingNames readable_of_mem_typedRecords
    _ listed)
  rw [(filed.this_eq listed).2] at named ⊢
  exact named

/-- The class of a record depends on what the record depends on. -/
theorem Filed.mem_dependenciesNamed_typed_iff {target : String} {kind : DependencyKind}
    {line : Option Nat} :
    (target, kind, line) ∈ pool.link.1.dependenciesNamed typed.entry.record.name ↔
      typed.entry.record.DependsOn target kind line := by
  have readable := @readable_of_mem_typedRecords pool
  have wellFormed : pool.link.1.WellFormed := link_graph pool ▸ Link.graph_wellFormed readable
  have numbered : Throughout pool.link.1.classes fun id node => node.id = id :=
    fun id node stands => (wellFormed.classes id node stands).id
  have exact : pool.link.1.DependenciesExact :=
    ClassGraph.ofParts_dependenciesExact numbered (Link.graph_componentsBefore readable)
  have read := (mem_typedRecords_iff.mp listed).2
  have own := filed.names_this listed
  have names {name : String} {place : ClassId}
      (found : (Link.number pool.typedRecords pool.missingNames).id? (.object name) = some place) :
      pool.link.1.Names place name := Link.graph_names found
  obtain ⟨node, stands, _⟩ := Option.map_eq_some_iff.mp ((own _).mpr rfl)
  rw [ClassGraph.mem_dependenciesNamed_iff exact numbered own stands]
  simp only [filed.refers_innermost_iff listed stands]
  constructor
  · rintro ⟨place, different, isTarget, type, name, refers, base, found⟩
    obtain rfl : name = target := (names found).className_eq.symm.trans isTarget
    exact ⟨typed, rfl, read, type, refers, base,
      fun isOwn => different (((names found).name_eq_iff own).mp isOwn)⟩
  · rintro ⟨other, sameRecord, otherRead, type, refers, base, different⟩
    have sameTypes : other.types = typed.types := Except.ok.inj (otherRead.symm.trans read)
    have isReferred := refers.congr sameRecord sameTypes
    have known := Link.number_knows pool.typedRecords pool.missingNames listed type
      (List.mem_cons_of_mem _ isReferred.mentioned)
    have found := (known.base base).id?_eq rfl
    exact ⟨_, fun isOwn => different (((names found).name_eq_iff own).mpr isOwn),
      (names found).className_eq, type, target, isReferred, base, found⟩

end Typed

section Present

variable (filed : pool.Filed) {name : String} {entry : PoolRecord}
  (present : pool.slots[name]? = some (.present entry))

include filed present

/-- A record becomes a class where its types can be read. -/
theorem Filed.links_iff :
    pool.link.1.Links name ↔ ∃ types, RecordTypes.ofRecord entry.record = .ok types := by
  simp only [ClassGraph.Links, ClassGraph.resolvedClasses, List.mem_filter, Array.mem_toList_iff,
    ClassNode.isStub, Bool.not_eq_true', decide_eq_false_iff_not]
  constructor
  · rintro ⟨node, ⟨listed, resolved⟩, rfl⟩
    obtain ⟨other, types, again, read, _⟩ := filed.exists_record_of_resolved listed resolved
    cases present.symm.trans again
    exact ⟨types, read⟩
  · rintro ⟨types, read⟩
    obtain ⟨id, node, stands, named, resolved⟩ := filed.exists_resolved_of_record present read
    exact ⟨node, ⟨Array.mem_of_getElem? stands, by simp [resolved]⟩, named⟩

/-- The class that it becomes depends on what the record depends on. -/
theorem Filed.mem_dependenciesNamed_iff (links : pool.link.1.Links name) (target : String)
    (kind : DependencyKind) (line : Option Nat) :
    (target, kind, line) ∈ pool.link.1.dependenciesNamed name ↔
      entry.record.DependsOn target kind line := by
  obtain ⟨types, read⟩ := (filed.links_iff present).mp links
  have listed : { entry, types } ∈ pool.typedRecords :=
    mem_typedRecords_iff.mpr ⟨⟨name, present⟩, read⟩
  obtain rfl := filed.named present
  exact filed.mem_dependenciesNamed_typed_iff listed

end Present

/-- What a class depends on is said by its record alone. Two completed pools with dotted names that
hold one record under a name both make a class of it or neither does, and the class has the same
dependencies in both, whatever else the pools hold. -/
theorem link_dependencies_own {left right : ClassPool} (leftCompleted : left.Completed)
    (rightCompleted : right.Completed) (leftDotted : left.Dotted) (rightDotted : right.Dotted)
    {name : String} {first second : PoolRecord}
    (inLeft : left.slots[name]? = some (.present first))
    (inRight : right.slots[name]? = some (.present second))
    (sameRecord : first.record = second.record) :
    (left.link.1.Links name ↔ right.link.1.Links name) ∧ (left.link.1.Links name →
      ∀ target kind line,
        ((target, kind, line) ∈ left.link.1.dependenciesNamed name ↔
          (target, kind, line) ∈ right.link.1.dependenciesNamed name) ∧
        ((target, kind, line) ∈ left.link.1.dependenciesNamed name ↔
          first.record.DependsOn target kind line)) := by
  have leftFiled := leftCompleted.filed leftDotted
  have rightFiled := rightCompleted.filed rightDotted
  have linked : left.link.1.Links name ↔ right.link.1.Links name := by
    rw [leftFiled.links_iff inLeft, rightFiled.links_iff inRight, sameRecord]
  refine ⟨linked, fun links target kind line => ?_⟩
  have inOne := leftFiled.mem_dependenciesNamed_iff inLeft links target kind line
  have inOther := rightFiled.mem_dependenciesNamed_iff inRight (linked.mp links) target kind line
  exact ⟨inOne.trans (sameRecord ▸ inOther.symm), inOne⟩

end ClassPool

/-- A class that implements `I` and calls a method of `A`. -/
def callingRecord : ClassRecord :=
  sampleClass "C" 0x0021 ["I"]
    [sampleMethod "m" "()V" 0x0001
      [{ kind := .methodCall, owner := "A", name := "n", descriptor := "()V", line := 3 }]]

/-- The class in a pool of its own. -/
def lonePool : ClassPool := samplePool [callingRecord]

/-- The class between others, of which it names one. -/
def sharedPool : ClassPool :=
  samplePool [sampleClass "B" 0x0021 [] [], callingRecord, sampleClass "I" 0x0601 [] []]

/-- The two pools number the classes differently, and the dependencies come in another order. -/
theorem link_dependencies_own_calling :
    lonePool.Completed ∧ sharedPool.Completed ∧ lonePool.Dotted ∧ sharedPool.Dotted ∧
      (∃ entry, entry.record = callingRecord ∧ lonePool.slots["C"]? = some (.present entry) ∧
        sharedPool.slots["C"]? = some (.present entry)) ∧
      lonePool.link.1.classes.map ClassNode.name = #["C", "A", "I"] ∧
      sharedPool.link.1.classes.map ClassNode.name = #["B", "C", "I", "A"] ∧
      lonePool.link.1.Links "C" ∧
      lonePool.link.1.dependenciesNamed "C" =
        [("A", .access .methodCall, some 3), ("I", .interface, none)] ∧
      sharedPool.link.1.dependenciesNamed "C" =
        [("I", .interface, none), ("A", .access .methodCall, some 3)] ∧
      ∀ target kind line,
        ((target, kind, line) ∈ lonePool.link.1.dependenciesNamed "C" ↔
          (target, kind, line) ∈ sharedPool.link.1.dependenciesNamed "C") ∧
        ((target, kind, line) ∈ lonePool.link.1.dependenciesNamed "C" ↔
          callingRecord.DependsOn target kind line) := by
  have leftCompleted : lonePool.Completed := samplePool_completed _
  have rightCompleted : sharedPool.Completed := samplePool_completed _
  have leftDotted : lonePool.Dotted := by decide +kernel
  have rightDotted : sharedPool.Dotted := by decide +kernel
  let entry : PoolRecord :=
    { record := callingRecord, pulledIn := false
      source := { uri := "C", fileName := none, checksum := .disabled } }
  have inLeft : lonePool.slots["C"]? = some (.present entry) := rfl
  have inRight : sharedPool.slots["C"]? = some (.present entry) := rfl
  have links : lonePool.link.1.Links "C" := by decide +kernel
  refine ⟨leftCompleted, rightCompleted, leftDotted, rightDotted, ⟨entry, rfl, inLeft, inRight⟩,
    by decide +kernel, by decide +kernel, links, ?_, ?_,
    (ClassPool.link_dependencies_own leftCompleted rightCompleted leftDotted rightDotted inLeft
      inRight rfl).2 links⟩
  all_goals
    simp only [ClassGraph.dependenciesNamed, ClassPool.dependenciesOf_link]
    decide +kernel

end ClassAtlas
