import ClassAtlas.Proofs.References
import ClassAtlas.Proofs.WellFormed
import Mathlib.Data.List.Sort
import Mathlib.Data.Prod.Lex
import Mathlib.Order.WithBot

/-!
# Dependencies in linked graphs

The dependencies of a linked graph are listed in the order of origin, target, kind and line,
each once. They are exactly what the classes of the graph refer to, where an array stands for
its innermost element and references of a class to itself do not count. The two views of the
list, by origin and by target, select from it and keep its order.
-/

namespace ClassAtlas

section Repetitions

variable {α : Type} [DecidableEq α]

/-- What the loop has done so far comes first. -/
theorem eraseRepsBy_loop (value : α) (rest done : List α) :
    List.eraseRepsBy.loop (· == ·) value rest done =
      done.reverse ++ List.eraseRepsBy.loop (· == ·) value rest [] := by
  induction rest generalizing value done with
  | nil => simp [List.eraseRepsBy.loop]
  | cons next later inductionHypothesis =>
    cases same : value == next with
    | true =>
      simp only [List.eraseRepsBy.loop, same]
      exact inductionHypothesis value done
    | false =>
      simp only [List.eraseRepsBy.loop, same]
      rw [inductionHypothesis next (value :: done), inductionHypothesis next [value]]
      simp

/-- A value that repeats the first one is dropped. -/
theorem eraseReps_cons_self (value : α) (rest : List α) :
    (value :: value :: rest).eraseReps = (value :: rest).eraseReps := by
  simp [List.eraseReps, List.eraseRepsBy, List.eraseRepsBy.loop]

/-- A first value that is not repeated is kept. -/
theorem eraseReps_cons_of_ne {value next : α} (different : value ≠ next) (rest : List α) :
    (value :: next :: rest).eraseReps = value :: (next :: rest).eraseReps := by
  have unequal : (value == next) = false := by simpa using different
  simp only [List.eraseReps, List.eraseRepsBy, List.eraseRepsBy.loop, unequal]
  rw [eraseRepsBy_loop]
  rfl

/-- Leaving out repetitions loses no value. -/
theorem mem_eraseReps_iff {values : List α} {value : α} :
    value ∈ values.eraseReps ↔ value ∈ values := by
  induction values with
  | nil => simp [List.eraseReps, List.eraseRepsBy]
  | cons first rest inductionHypothesis =>
    cases rest with
    | nil => simp [List.eraseReps, List.eraseRepsBy, List.eraseRepsBy.loop]
    | cons next later =>
      by_cases same : first = next
      · subst same
        rw [eraseReps_cons_self, inductionHypothesis]
        simp
      · rw [eraseReps_cons_of_ne same, List.mem_cons, inductionHypothesis, ← List.mem_cons]

/-- Without repetitions, values in the order of a key that tells them apart are in strict
order: of two neighbours that differ the keys differ too. -/
theorem eraseReps_increasing {κ : Type} [LinearOrder κ] {key : α → κ}
    (injective : Function.Injective key) {values : List α}
    (sorted : values.Pairwise fun left right => key left ≤ key right) :
    values.eraseReps.Pairwise fun left right => key left < key right := by
  induction values with
  | nil => simp [List.eraseReps, List.eraseRepsBy]
  | cons first rest inductionHypothesis =>
    obtain ⟨least, restSorted⟩ := List.pairwise_cons.mp sorted
    cases rest with
    | nil => simp [List.eraseReps, List.eraseRepsBy, List.eraseRepsBy.loop]
    | cons next later =>
      by_cases same : first = next
      · subst same
        rw [eraseReps_cons_self]
        exact inductionHypothesis restSorted
      · rw [eraseReps_cons_of_ne same]
        refine List.pairwise_cons.mpr ⟨?_, inductionHypothesis restSorted⟩
        have step : key first < key next :=
          lt_of_le_of_ne (least next List.mem_cons_self) fun equal => same (injective equal)
        intro other listed
        rcases List.mem_cons.mp (mem_eraseReps_iff.mp listed) with rfl | further
        · exact step
        · exact step.trans_le ((List.pairwise_cons.mp restSorted).1 other further)

end Repetitions

/-- The kinds of dependencies in order. -/
def DependencyKind.inOrder : List DependencyKind :=
  [.superclass, .interface, .fieldType, .parameterType, .returnType, .throws, .access .getField,
    .access .setField, .access .methodCall, .access .constructorCall, .typeReference,
    .annotationType]

/-- The rank of a kind is its place in the order. -/
theorem DependencyKind.getElem?_inOrder (kind : DependencyKind) :
    inOrder[kind.rank]? = some kind := by
  cases kind with
  | access use => cases use <;> rfl
  | _ => rfl

/-- No two kinds have the same rank. -/
theorem DependencyKind.rank_injective : Function.Injective DependencyKind.rank := by
  intro left right same
  rw [← Option.some.injEq, ← getElem?_inOrder left, same, getElem?_inOrder right]

namespace Dependency

/-- A line among all lines; where there is none, that comes before all of them. -/
def lineKey : Option Nat → WithBot Nat
  | none => ⊥
  | some line => WithBot.some line

/-- What dependencies are ordered by, compared from the left: origin, target, kind and line. -/
def key (dependency : Dependency) : Nat ×ₗ Nat ×ₗ Nat ×ₗ WithBot Nat :=
  toLex (dependency.origin, toLex (dependency.target, toLex (dependency.kind.rank,
    lineKey dependency.line)))

/-- Lines are told apart by their keys. -/
theorem lineKey_injective : Function.Injective lineKey := by
  intro left right same
  cases left <;> cases right <;> simp_all [lineKey]

/-- Dependencies are told apart by their keys. -/
theorem key_injective : Function.Injective key := by
  intro left right same
  simp only [key, EmbeddingLike.apply_eq_iff_eq, Prod.mk.injEq] at same
  obtain ⟨origin, target, rank, line⟩ := same
  cases left
  cases right
  simp only [mk.injEq]
  exact ⟨origin, target, DependencyKind.rank_injective rank, lineKey_injective line⟩

/-- Lines are ordered as their keys are. -/
theorem lineLe_iff {left right : Option Nat} :
    lineLe left right = true ↔ lineKey left ≤ lineKey right := by
  cases left <;> cases right <;> simp [lineLe, lineKey]

/-- The order that dependencies are sorted by is that of their keys. -/
theorem le_iff {left right : Dependency} : le left right = true ↔ left.key ≤ right.key := by
  simp only [key, Prod.Lex.toLex_le_toLex, ← lineLe_iff, le]
  by_cases origin : left.origin = right.origin
  · by_cases target : left.target = right.target
    · by_cases rank : left.kind.rank = right.kind.rank <;> simp [origin, target, rank]
    · simp [origin, target]
  · simp [origin]

instance : IsTrans Dependency fun left right => le left right where
  trans _ _ _ first second := le_iff.mpr ((le_iff.mp first).trans (le_iff.mp second))

instance : Std.Total fun left right : Dependency => le left right where
  total left right := by
    rw [le_iff, le_iff]
    exact le_total left.key right.key

instance : Std.Antisymm fun left right : Dependency => le left right where
  antisymm _ _ lower upper := key_injective (le_antisymm (le_iff.mp lower) (le_iff.mp upper))

variable {classes : Array ClassNode} {members : Array Member} {accesses : Array AccessEdge}

/-- The order leaves no choice, so that inserting the dependencies of a class one by one puts them
in the same places. -/
theorem ofClass_eq_insertionSort (node : ClassNode) :
    ofClass classes members accesses node =
      List.eraseReps ((Reference.ofClass members accesses node).filterMap
        (ofReference? classes node.id) |>.insertionSort fun left right => le left right) := by
  have sorted := List.mergeSort_eq_insertionSort fun left right : Dependency => le left right
  simp only [Bool.decide_eq_true] at sorted
  rw [ofClass, sorted]

/-- The dependencies of a class are in strict order. -/
theorem ofClass_increasing (node : ClassNode) :
    (ofClass classes members accesses node).Pairwise fun left right => left.key < right.key := by
  rw [ofClass_eq_insertionSort]
  apply eraseReps_increasing key_injective
  exact (List.pairwise_insertionSort _ _).imp le_iff.mp

/-- A reference makes a dependency on the innermost element, unless that is the class itself. -/
theorem ofReference?_eq_some_iff (before : ComponentsBefore classes) {origin : ClassId}
    {reference : Reference} {dependency : Dependency} :
    ofReference? classes origin reference = some dependency ↔
      dependency.origin = origin ∧ dependency.kind = reference.kind ∧
        dependency.line = reference.line ∧
        IsInnermost classes reference.target dependency.target ∧
        dependency.target ≠ dependency.origin := by
  obtain ⟨start, target, kind, line⟩ := dependency
  rw [← innermost_eq_some_iff before, ofReference?]
  cases innermost classes reference.target with
  | none => simp
  | some inner =>
    by_cases self : inner = origin
    · simp only [self, if_true, Option.some.injEq]
      constructor
      · simp
      · rintro ⟨rfl, _, _, rfl, different⟩
        exact absurd rfl different
    · simp only [self, if_false, Option.some.injEq, mk.injEq]
      constructor
      · rintro ⟨rfl, rfl, rfl, rfl⟩
        exact ⟨rfl, rfl, rfl, rfl, self⟩
      · rintro ⟨rfl, rfl, rfl, rfl, _⟩
        exact ⟨rfl, rfl, rfl, rfl⟩

/-- The dependencies of a class are what it refers to, arrays opened, other than itself. -/
theorem mem_ofClass_iff (before : ComponentsBefore classes) {node : ClassNode}
    {dependency : Dependency} : dependency ∈ ofClass classes members accesses node ↔
      dependency.origin = node.id ∧ dependency.target ≠ dependency.origin ∧
        ∃ named, node.Refers members accesses named dependency.kind dependency.line ∧
          IsInnermost classes named dependency.target := by
  rw [ofClass, mem_eraseReps_iff, List.mem_mergeSort, List.mem_filterMap]
  simp only [Reference.mem_ofClass_iff, ofReference?_eq_some_iff before]
  constructor
  · rintro ⟨reference, refers, origin, kind, line, innermost, different⟩
    exact ⟨origin, different, reference.target, kind ▸ line ▸ refers, innermost⟩
  · rintro ⟨origin, different, named, refers, innermost⟩
    exact ⟨⟨named, dependency.kind, dependency.line⟩, refers, origin, rfl, rfl, innermost,
      different⟩

end Dependency

/-- Looking values up by the places that stand in a bucket selects the values of its number. -/
theorem filterMap_bucket {α : Type} (items : List α) (number : α → Nat) {count : Nat}
    (inside : ∀ item ∈ items, number item < count) (wanted : Nat) :
    ((buckets count (items.zipIdx.map fun (item, place) => (number item, place)))[wanted]?.getD
        []).filterMap (fun place => items[place]?) =
      items.filter fun item => number item = wanted := by
  by_cases present : wanted < count
  · have looked : ∀ row ∈ items.zipIdx.filter fun row => number row.1 = wanted,
        items[row.2]? = some row.1 := by
      intro row selected
      exact List.mem_zipIdx_iff_getElem?.mp (List.mem_filter.mp selected).1
    calc ((buckets count (items.zipIdx.map fun (item, place) => (number item, place)))[wanted]?.getD
          []).filterMap (fun place => items[place]?)
        = (items.zipIdx.filter fun row => number row.1 = wanted).filterMap
            (fun row => items[row.2]?) := by
          rw [getElem?_buckets count wanted _ present, Option.getD_some, List.filter_map,
            List.map_map, List.filterMap_map]
          rfl
      _ = (items.zipIdx.filter fun row => number row.1 = wanted).filterMap (some ∘ Prod.fst) :=
          List.filterMap_congr looked
      _ = ((items.zipIdx.map Prod.fst).filter fun item => number item = wanted) := by
          rw [List.filterMap_eq_map, List.filter_map]
          rfl
      _ = items.filter fun item => number item = wanted := by rw [List.zipIdx_map_fst]
  · rw [Array.getElem?_eq_none (by simpa using present), Option.getD_none, List.filterMap_nil,
      eq_comm, List.filter_eq_nil_iff]
    intro item listed same
    exact present (of_decide_eq_true same ▸ inside item listed)

namespace ClassGraph

/-- What the dependencies of a graph have to be. -/
structure DependenciesExact (graph : ClassGraph) : Prop where
  increasing : graph.dependencies.toList.Pairwise fun left right => left.key < right.key
  mem_iff : ∀ dependency, dependency ∈ graph.dependencies ↔
    dependency.target ≠ dependency.origin ∧
      ∃ node named, graph.classes[dependency.origin]? = some node ∧
        node.Refers graph.members graph.accesses named dependency.kind dependency.line ∧
        IsInnermost graph.classes named dependency.target
  plain : ∀ dependency ∈ graph.dependencies,
    ∃ node, graph.classes[dependency.target]? = some node ∧ node.type.isArray = false
  outgoing : ∀ id, graph.dependenciesOf id =
    graph.dependencies.toList.filter fun dependency => dependency.origin = id
  incoming : ∀ id, graph.dependenciesOn id =
    graph.dependencies.toList.filter fun dependency => dependency.target = id

section OfParts

variable {classes : Array ClassNode} {members : Array Member} {accesses : Array AccessEdge}

/-- The dependencies of a graph are those of its classes, one class after the other. -/
theorem dependencies_ofParts : (ofParts classes members accesses).dependencies.toList =
    classes.toList.flatMap (Dependency.ofClass classes members accesses) := rfl

variable (numbered : Throughout classes fun id node => node.id = id)
  (before : ComponentsBefore classes)

include numbered before

/-- There is a dependency exactly where a class refers to another, arrays opened. -/
theorem mem_dependencies_ofParts_iff {dependency : Dependency} :
    dependency ∈ (ofParts classes members accesses).dependencies ↔
      dependency.target ≠ dependency.origin ∧
        ∃ node named, classes[dependency.origin]? = some node ∧
          node.Refers members accesses named dependency.kind dependency.line ∧
          IsInnermost classes named dependency.target := by
  rw [← Array.mem_toList_iff, dependencies_ofParts, List.mem_flatMap]
  simp only [Dependency.mem_ofClass_iff before, Array.mem_toList_iff, Array.mem_iff_getElem?]
  constructor
  · rintro ⟨node, ⟨place, stands⟩, origin, different, named, refers, innermost⟩
    rw [numbered place node stands] at origin
    exact ⟨different, node, named, origin ▸ stands, refers, innermost⟩
  · rintro ⟨different, node, named, stands, refers, innermost⟩
    exact ⟨node, ⟨_, stands⟩, (numbered _ node stands).symm, different, named, refers, innermost⟩

/-- Classes come in the order of their numbers, which are the origins. -/
theorem dependencies_ofParts_increasing :
    (ofParts classes members accesses).dependencies.toList.Pairwise
      fun left right => left.key < right.key := by
  rw [dependencies_ofParts, List.pairwise_flatMap]
  refine ⟨fun node _ => Dependency.ofClass_increasing node, ?_⟩
  rw [List.pairwise_iff_getElem]
  intro left right leftInside rightInside less first isFirst second isSecond
  have atLeft : classes[left]? = some classes.toList[left] := by simp
  have atRight : classes[right]? = some classes.toList[right] := by simp
  have firstOrigin := ((Dependency.mem_ofClass_iff before).mp isFirst).1
  have secondOrigin := ((Dependency.mem_ofClass_iff before).mp isSecond).1
  rw [numbered left _ atLeft] at firstOrigin
  rw [numbered right _ atRight] at secondOrigin
  rw [Dependency.key, Dependency.key, Prod.Lex.toLex_lt_toLex]
  exact Or.inl (by simpa only [firstOrigin, secondOrigin] using less)

/-- A graph whose classes are numbered in order, components before arrays, has exact
dependencies. -/
theorem ofParts_dependenciesExact : (ofParts classes members accesses).DependenciesExact where
  increasing := dependencies_ofParts_increasing numbered before
  mem_iff _ := mem_dependencies_ofParts_iff numbered before
  plain dependency listed := by
    obtain ⟨_, _, _, _, _, innermost⟩ := (mem_dependencies_ofParts_iff numbered before).mp listed
    exact innermost.plain
  outgoing id := by
    rw [← filterMap_bucket _ Dependency.origin ?_ id]
    · simp only [Array.getElem?_toList]
      rfl
    intro dependency listed
    obtain ⟨_, _, _, stands, _⟩ := (mem_dependencies_ofParts_iff numbered before).mp
      (Array.mem_toList_iff.mp listed)
    exact (Array.getElem?_eq_some_iff.mp stands).1
  incoming id := by
    rw [← filterMap_bucket _ Dependency.target ?_ id]
    · simp only [Array.getElem?_toList]
      rfl
    intro dependency listed
    obtain ⟨_, _, _, _, _, innermost⟩ := (mem_dependencies_ofParts_iff numbered before).mp
      (Array.mem_toList_iff.mp listed)
    obtain ⟨_, stands, _⟩ := innermost.plain
    exact (Array.getElem?_eq_some_iff.mp stands).1

end OfParts

end ClassGraph

namespace Link

variable {records : List TypedRecord} {missing : List String}

/-- The component of a node is that of its type. -/
theorem graph_component {id : ClassId} {node : ClassNode}
    (stands : (graph records missing).classes[id]? = some node) :
    node.component = node.type.component?.bind (number records missing).id? := by
  have declared : Throughout (declaredNodes (number records missing) (rows records missing))
      fun _ node => node.component = node.type.component?.bind (number records missing).id? :=
    declaredNodes_throughout (fun _ _ _ => rfl) (fun _ _ _ _ kept => kept)
  have sameView := @graph_view_declared records missing _
    (fun node => (node.type, node.component)) (fun _ => rfl) (fun _ _ => rfl) id
  rw [stands, Option.map_some, eq_comm, Option.map_eq_some_iff] at sameView
  obtain ⟨before, atId, same⟩ := sameView
  obtain ⟨sameType, sameComponent⟩ := Prod.mk.inj same
  exact sameType ▸ sameComponent ▸ declared id before atId

/-- In a linked graph only arrays have components, and those stand before them. -/
theorem graph_componentsBefore (readable : ∀ typed ∈ records, typed.types.Readable) :
    ComponentsBefore (graph records missing).classes := by
  intro id node stands part below
  obtain ⟨element, isComponent, _⟩ :=
    Option.bind_eq_some_iff.mp ((graph_component stands).symm.trans below)
  cases shape : node.type with
  | primitive kind => simp [shape, TypeName.component?] at isComponent
  | object name => simp [shape, TypeName.component?] at isComponent
  | array inner =>
    obtain ⟨_, _, _, earlier⟩ := (graph_wellFormed readable).arrays id node inner stands shape
    exact ⟨(earlier part below).1, rfl⟩

end Link

/-- The graph of any pool is well formed, and its dependencies are exactly what its classes refer
to. -/
theorem ClassPool.link_exact (pool : ClassPool) :
    pool.link.1.WellFormed ∧ pool.link.1.DependenciesExact := by
  have readable := @ClassPool.readable_of_mem_typedRecords pool
  have wellFormed : pool.link.1.WellFormed := Link.graph_wellFormed readable
  exact ⟨wellFormed, ClassGraph.ofParts_dependenciesExact
    (fun id node stands => (wellFormed.classes id node stands).id)
    (Link.graph_componentsBefore readable)⟩

/-- The dependencies of a class in the graph of a pool, put in order by insertion. -/
theorem ClassPool.dependenciesOf_link (pool : ClassPool) (id : ClassId) :
    pool.link.1.dependenciesOf id =
      (pool.link.1.classes.toList.flatMap fun node =>
        (((Reference.ofClass pool.link.1.members pool.link.1.accesses node).filterMap
          (Dependency.ofReference? pool.link.1.classes node.id)).insertionSort
            fun left right => left.le right).eraseReps).filter
        fun dependency => dependency.origin = id := by
  have gathered : pool.link.1.dependencies.toList = pool.link.1.classes.toList.flatMap
      (Dependency.ofClass pool.link.1.classes pool.link.1.members pool.link.1.accesses) := rfl
  simp only [pool.link_exact.2.outgoing, gathered, ← Dependency.ofClass_eq_insertionSort]

/-- In the graph of any pool, the dependencies are exactly what the classes refer to. -/
theorem ClassPool.link_dependencies_exact (pool : ClassPool) : pool.link.1.DependenciesExact :=
  pool.link_exact.2

end ClassAtlas
