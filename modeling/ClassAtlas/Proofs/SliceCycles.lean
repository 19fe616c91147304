import ClassAtlas.Proofs.Dependencies
import ClassAtlas.Proofs.Walks
import ClassAtlas.Rule.Cycles
import Mathlib.Data.List.Sort
import Mathlib.Data.String.Basic

/-!
# Cycles between slices

A slice depends on another where an imported class of the one has a dependency on a class of
the other. The slices of a pattern thus form a directed graph, and the cycle rule has to report
its strongly connected components of two or more slices, each once.

The components are found by searching from every slice. That the search finds all that is
reached comes from walks in finite graphs; what is left is that mutual reachability divides the
slices into classes, and that a class is reported at its smallest slice only. Since no slice
depends on itself, a slice that reaches itself has company, and some dependency leaves the
smallest slice of a cycle without leaving the cycle. So there is always a class to point at.
-/

namespace ClassAtlas

open Relation

/-- A package lies in a slice: the pattern takes it and captures the slice, which is not empty. -/
def InSlice (pattern : PackagePattern) (package slice : String) : Prop :=
  slice ≠ "" ∧ ∃ others, pattern.captures package = some (slice :: others)

/-- A dependency shows that one slice depends on another: it leads from an imported class of the
one to a class of the other. -/
def ShowsSlices (pattern : PackagePattern) (graph : ClassGraph) (origin target : String)
    (dependency : Dependency) : Prop :=
  origin ≠ target ∧ dependency ∈ graph.dependencies ∧
    ∃ node ∈ graph.importedClasses, dependency.origin = node.id ∧
      InSlice pattern node.package origin ∧
      InSlice pattern (graph.packageOf dependency.target) target

/-- One slice depends on another. -/
def SliceDepends (pattern : PackagePattern) (graph : ClassGraph) (origin target : String) : Prop :=
  ∃ dependency, ShowsSlices pattern graph origin target dependency

/-- Two or more slices in ascending order that are a strongly connected component: together
with a slice, those and only those that it reaches and that reach it. -/
structure IsCycle (depends : String → String → Prop) (cycle : List String) : Prop where
  ascending : cycle.Pairwise (· < ·)
  several : 2 ≤ cycle.length
  component : ∀ slice ∈ cycle, ∀ other, other ∈ cycle ↔
    ReflTransGen depends slice other ∧ ReflTransGen depends other slice

namespace SliceEdge

/-- The slice of a package is the one that it lies in. -/
theorem slice?_eq_some_iff {pattern : PackagePattern} {package slice : String} :
    slice? pattern package = some slice ↔ InSlice pattern package slice := by
  rw [slice?, Option.filter_eq_some_iff, Option.bind_eq_some_iff, InSlice]
  simp only [List.head?_eq_some_iff, decide_eq_true_eq]
  grind

variable {pattern : PackagePattern} {graph : ClassGraph}

/-- The edges of a class are those that dependencies of it show. -/
theorem mem_ofClass_iff {node : ClassNode} {edge : SliceEdge} :
    edge ∈ ofClass pattern graph node ↔
      edge.shown ∈ graph.dependenciesOf node.id ∧ edge.origin ≠ edge.target ∧
        InSlice pattern node.package edge.origin ∧
        InSlice pattern (graph.packageOf edge.shown.target) edge.target := by
  obtain ⟨origin, target, shown⟩ := edge
  rw [← slice?_eq_some_iff, ← slice?_eq_some_iff, ofClass]
  cases inSlice : slice? pattern node.package with
  | none => simp
  | some slice =>
    simp only [List.mem_filterMap, ofDependency?, Option.map_eq_some_iff,
      Option.filter_eq_some_iff, mk.injEq, Option.some.injEq]
    grind

/-- Every edge of a graph is shown by its dependency. -/
theorem shows_of_mem_ofGraph (exact : graph.DependenciesExact) {edge : SliceEdge}
    (listed : edge ∈ ofGraph pattern graph) :
    ShowsSlices pattern graph edge.origin edge.target edge.shown := by
  obtain ⟨node, imported, made⟩ := List.mem_flatMap.mp ((firstsBy_sublist _ _).subset listed)
  obtain ⟨outgoing, different, origin, target⟩ := mem_ofClass_iff.mp made
  rw [exact.outgoing, List.mem_filter, decide_eq_true_eq, Array.mem_toList_iff] at outgoing
  exact ⟨different, outgoing.1, node, imported, outgoing.2, origin, target⟩

/-- Every dependency between slices has its edge, though maybe shown by another dependency. -/
theorem exists_mem_ofGraph_iff (exact : graph.DependenciesExact) {origin target : String} :
    (∃ edge ∈ ofGraph pattern graph, edge.origin = origin ∧ edge.target = target) ↔
      SliceDepends pattern graph origin target := by
  constructor
  · rintro ⟨edge, listed, rfl, rfl⟩
    exact ⟨edge.shown, shows_of_mem_ofGraph exact listed⟩
  · rintro ⟨dependency, different, present, node, imported, leaves, inOrigin, inTarget⟩
    have outgoing : dependency ∈ graph.dependenciesOf node.id := by
      rw [exact.outgoing, List.mem_filter, decide_eq_true_eq, Array.mem_toList_iff]
      exact ⟨present, leaves⟩
    have made : ⟨origin, target, dependency⟩ ∈ ofClass pattern graph node :=
      mem_ofClass_iff.mpr ⟨outgoing, different, inOrigin, inTarget⟩
    have key : (origin, target) ∈ (ofGraph pattern graph).map
        fun edge => (edge.origin, edge.target) := by
      rw [ofGraph, mem_map_firstsBy]
      exact List.mem_map.mpr ⟨_, List.mem_flatMap.mpr ⟨node, imported, made⟩, rfl⟩
    obtain ⟨edge, listed, same⟩ := List.mem_map.mp key
    exact ⟨edge, listed, congrArg Prod.fst same, congrArg Prod.snd same⟩

variable {edges : List SliceEdge}

/-- An edge leads from one slice to another. -/
def Leads (edges : List SliceEdge) (origin target : String) : Prop :=
  ∃ edge ∈ edges, edge.origin = origin ∧ edge.target = target

/-- The next slices are those that an edge leads to. -/
theorem mem_next_iff {origin target : String} :
    target ∈ next edges origin ↔ Leads edges origin target := by
  simp [next, Leads, and_assoc]

/-- The slices are the ends of the edges. -/
theorem mem_slices_iff {slice : String} :
    slice ∈ slices edges ↔ ∃ edge ∈ edges, slice = edge.origin ∨ slice = edge.target := by
  have kept := mem_map_firstsBy id (edges.flatMap fun edge => [edge.origin, edge.target]) slice
  rw [List.map_id, List.map_id] at kept
  rw [slices, List.mem_mergeSort, kept, List.mem_flatMap]
  simp

/-- The slices are in ascending order, each once. -/
theorem slices_ascending (edges : List SliceEdge) : (slices edges).Pairwise (· < ·) := by
  have le_iff (left right : String) : (compare left right != .gt) = true ↔ left ≤ right := by
    rw [bne_iff_ne, compare_le_iff_le.symm]
  have sorted : (slices edges).Pairwise (· ≤ ·) := by
    refine (List.pairwise_mergeSort ?_ ?_ _).imp fun {left right} => (le_iff left right).mp
    · intro first second third
      simp only [le_iff]
      exact le_trans
    · intro first second
      simp only [Bool.or_eq_true, le_iff]
      exact le_total first second
  have distinct : (slices edges).Nodup := by
    have kept := nodup_map_firstsBy id (edges.flatMap fun edge => [edge.origin, edge.target])
    rw [List.map_id] at kept
    exact (List.mergeSort_perm _ _).nodup_iff.mpr kept
  exact (sorted.and distinct).imp fun both => lt_of_le_of_ne both.1 both.2

/-- The slices reached are those that one or more edges lead to. -/
theorem mem_reached_iff {slice other : String} :
    other ∈ reached edges slice ↔ TransGen (Leads edges) slice other := by
  have closed : ∀ lower, ∀ upper ∈ next edges lower, upper ∈ slices edges := by
    intro lower upper step
    obtain ⟨edge, listed, _, rfl⟩ := mem_next_iff.mp step
    exact mem_slices_iff.mpr ⟨edge, listed, Or.inr rfl⟩
  rw [reached, Reachability.mem_successors_iff closed le_rfl]
  simp only [mem_next_iff]

/-- The component of a slice holds the slices that it reaches and that reach it. -/
theorem mem_component_iff {slice other : String} :
    other ∈ component edges slice ↔
      TransGen (Leads edges) slice other ∧ TransGen (Leads edges) other slice := by
  simp only [component, List.mem_filter, Bool.and_eq_true, List.contains_iff_mem, mem_reached_iff]
  refine and_iff_right_of_imp fun joined => ?_
  obtain ⟨_, _, ⟨edge, listed, _, rfl⟩⟩ := TransGen.tail'_iff.mp joined.1
  exact mem_slices_iff.mpr ⟨edge, listed, Or.inr rfl⟩

/-- The slices of a component are sorted by name, without repetition. -/
theorem component_ascending (edges : List SliceEdge) (slice : String) :
    (component edges slice).Pairwise (· < ·) :=
  (slices_ascending edges).filter _

/-- A cycle is the component of its first slice. -/
theorem mem_cycles_iff {cycle : List String} :
    cycle ∈ cycles edges ↔
      ∃ slice ∈ slices edges, component edges slice = cycle ∧ cycle.head? = some slice := by
  simp only [cycles, List.filterMap_map, List.mem_filterMap, Function.comp_apply]
  refine exists_congr fun slice => and_congr_right fun _ => ?_
  split <;> grind

/-- A slice that reaches itself has a neighbour in its component. -/
theorem exists_leads_of_mem_component {slice : String}
    (own : slice ∈ component edges slice) :
    ∃ other ∈ component edges slice, Leads edges slice other := by
  obtain ⟨around, _⟩ := mem_component_iff.mp own
  obtain ⟨other, step, back⟩ := TransGen.head'_iff.mp around
  refine ⟨other, mem_component_iff.mpr ⟨.single step, ?_⟩, step⟩
  rcases reflTransGen_iff_eq_or_transGen.mp back with rfl | back
  · exact .single step
  · exact back

/-- The component of a slice that reaches itself is a strongly connected component. It holds
another slice, because no edge leads from a slice to itself. -/
theorem isCycle_component (irreflexive : ∀ slice, ¬ Leads edges slice slice) {slice : String}
    (own : slice ∈ component edges slice) : IsCycle (Leads edges) (component edges slice) where
  ascending := component_ascending edges slice
  several := by
    obtain ⟨other, inside, step⟩ := exists_leads_of_mem_component own
    have different : slice ≠ other := by
      rintro rfl
      exact irreflexive slice step
    have pair : [slice, other].Nodup := by simp [different]
    exact (List.subperm_of_subset pair (by simp [own, inside])).length_le
  component := by
    intro member inside other
    obtain ⟨toMember, fromMember⟩ := mem_component_iff.mp inside
    rw [mem_component_iff]
    constructor
    · rintro ⟨toOther, fromOther⟩
      exact ⟨(fromMember.trans toOther).to_reflTransGen, (fromOther.trans toMember).to_reflTransGen⟩
    · rintro ⟨toOther, fromOther⟩
      exact ⟨toMember.trans_left toOther, TransGen.trans_right fromOther fromMember⟩

/-- A strongly connected component of several slices is the component of each of them. -/
theorem component_eq_of_isCycle {cycle : List String} (isCycle : IsCycle (Leads edges) cycle)
    {slice : String} (inside : slice ∈ cycle) : component edges slice = cycle := by
  -- Some other slice of the cycle is reached, and it leads back.
  have several : cycle ≠ [slice] := by
    rintro rfl
    exact absurd isCycle.several (by simp)
  obtain ⟨other, otherInside, different⟩ :=
    ((isCycle.ascending.nodup.ne_singleton_iff slice).mp several).resolve_left
      (List.ne_nil_of_mem inside)
  have around : TransGen (Leads edges) slice slice := by
    obtain ⟨there, back⟩ := (isCycle.component slice inside other).mp otherInside
    rcases reflTransGen_iff_eq_or_transGen.mp there with same | there
    · exact absurd same different
    · exact there.trans_left back
  refine (component_ascending edges slice).eq_of_mem_iff isCycle.ascending fun member => ?_
  rw [mem_component_iff, isCycle.component slice inside]
  constructor
  · rintro ⟨there, back⟩
    exact ⟨there.to_reflTransGen, back.to_reflTransGen⟩
  · rintro ⟨there, back⟩
    exact ⟨around.trans_left there, TransGen.trans_right back around⟩

/-- The cycles are the strongly connected components of two or more slices. -/
theorem mem_cycles_iff_isCycle (irreflexive : ∀ slice, ¬ Leads edges slice slice)
    {cycle : List String} : cycle ∈ cycles edges ↔ IsCycle (Leads edges) cycle := by
  rw [mem_cycles_iff]
  constructor
  · rintro ⟨slice, _, rfl, first⟩
    exact isCycle_component irreflexive (List.mem_of_head? first)
  · intro isCycle
    obtain ⟨slice, rest, rfl⟩ := List.exists_cons_of_length_pos
      (Nat.lt_of_lt_of_le Nat.zero_lt_two isCycle.several)
    have same := component_eq_of_isCycle isCycle List.mem_cons_self
    refine ⟨slice, ?_, same, rfl⟩
    have own : slice ∈ component edges slice := same ▸ List.mem_cons_self
    exact (List.filter_sublist.subset own : slice ∈ slices edges)

/-- The cycles come in the order of their first slices. -/
theorem cycles_ordered (edges : List SliceEdge) : (cycles edges).Pairwise fun left right =>
    ∀ first ∈ left.head?, ∀ second ∈ right.head?, first < second := by
  rw [cycles, List.filterMap_map, List.pairwise_filterMap]
  refine (slices_ascending edges).imp ?_
  intro left right less cycle isCycle other isOther
  simp only [Function.comp_apply, Option.ite_none_right_eq_some,
    Option.some.injEq] at isCycle isOther
  obtain ⟨first, rfl⟩ := isCycle
  obtain ⟨second, rfl⟩ := isOther
  rw [first, second]
  rintro _ ⟨⟩ _ ⟨⟩
  exact less

/-- No slice occurs in two cycles: they would both be its component. -/
theorem cycles_disjoint (irreflexive : ∀ slice, ¬ Leads edges slice slice) :
    (cycles edges).Pairwise List.Disjoint := by
  refine (cycles_ordered edges).imp_of_mem ?_
  intro left right isLeft isRight ordered slice inLeft inRight
  have leftCycle := (mem_cycles_iff_isCycle irreflexive).mp isLeft
  have rightCycle := (mem_cycles_iff_isCycle irreflexive).mp isRight
  obtain rfl : left = right :=
    (component_eq_of_isCycle leftCycle inLeft).symm.trans
      (component_eq_of_isCycle rightCycle inRight)
  obtain ⟨first, isFirst⟩ := Option.isSome_iff_exists.mp
    (List.isSome_head?.mpr (List.ne_nil_of_mem inLeft))
  exact lt_irrefl first (ordered first isFirst first isFirst)

/-- The first edge listed inside a cycle leaves its first slice. -/
theorem exists_within_eq_cons {first : String} {rest : List String}
    (isCycle : IsCycle (Leads edges) (first :: rest)) :
    ∃ edge others, within edges (first :: rest) = edge :: others ∧ edge ∈ edges ∧
      edge.origin = first ∧ edge.target ∈ first :: rest := by
  have same := component_eq_of_isCycle isCycle List.mem_cons_self
  obtain ⟨target, inside, step⟩ := exists_leads_of_mem_component
    (show first ∈ component edges first from same ▸ List.mem_cons_self)
  rw [same] at inside
  have leaving : ((first :: rest).filterMap fun target =>
      edges.find? fun edge => edge.origin = first && edge.target = target) ≠ [] := by
    obtain ⟨edge, listed, rfl, rfl⟩ := step
    intro none
    have missed := List.filterMap_eq_nil_iff.mp none edge.target inside
    simpa using List.find?_eq_none.mp missed edge listed
  obtain ⟨edge, others, split⟩ := List.exists_cons_of_ne_nil leaving
  obtain ⟨target, inside, found⟩ := List.mem_filterMap.mp (split ▸ List.mem_cons_self)
  have ends := List.find?_some found
  simp only [Bool.and_eq_true, decide_eq_true_eq] at ends
  refine ⟨edge, _, by rw [within, List.flatMap_cons, split, List.cons_append],
    List.mem_of_find?_eq_some found, ends.1, ends.2 ▸ inside⟩

end SliceEdge

namespace CycleRule

/-- A violation reports a cycle: it names the slices in order, and stands where an imported
class of the first slice has a dependency on a class of another slice of the cycle. -/
structure Reports (graph : ClassGraph) (pattern : PackagePattern) (cycle : List String)
    (violation : Violation) : Prop where
  rule : violation.code = code ∧ violation.rule = name ∧ violation.severity = .error
  message : violation.message = "Slices of '" ++ pattern.text ++
    "' form a dependency cycle: " ++ ", ".intercalate cycle
  location : ∃ first rest target dependency node, cycle = first :: rest ∧ target ∈ rest ∧
    ShowsSlices pattern graph first target dependency ∧
    graph.classes[dependency.origin]? = some node ∧
    violation.location = node.locate dependency.line

/-- Violations report the cycles between the slices of a pattern: each strongly connected
component of two or more slices once, in the order of their first slices, and nothing else. -/
def ReportsCycles (graph : ClassGraph) (pattern : PackagePattern) (violations : List Violation) :
    Prop :=
  ∃ cycles : List (List String),
    List.Forall₂ (Reports graph pattern) cycles violations ∧
    (∀ cycle, cycle ∈ cycles ↔ IsCycle (SliceDepends pattern graph) cycle) ∧
    (cycles.Pairwise fun left right =>
      ∀ first ∈ left.head?, ∀ second ∈ right.head?, first < second) ∧
    cycles.Pairwise List.Disjoint

variable {graph : ClassGraph} {pattern : PackagePattern}

/-- The violation made for a cycle reports it. In a well-formed graph the class of every
dependency is there, so that its location is known. -/
theorem violation_reports (wellFormed : graph.WellFormed) (exact : graph.DependenciesExact)
    {cycle : List String}
    (isCycle : IsCycle (SliceEdge.Leads (SliceEdge.ofGraph pattern graph)) cycle) :
    Reports graph pattern cycle
      (violation graph pattern (SliceEdge.ofGraph pattern graph) cycle) := by
  refine ⟨⟨rfl, rfl, rfl⟩, rfl, ?_⟩
  obtain ⟨first, rest, rfl⟩ := List.exists_cons_of_length_pos
    (Nat.lt_of_lt_of_le Nat.zero_lt_two isCycle.several)
  obtain ⟨edge, others, inside, listed, rfl, target⟩ := SliceEdge.exists_within_eq_cons isCycle
  have shown := SliceEdge.shows_of_mem_ofGraph exact listed
  have ⟨different, _, node, imported, leaves, _⟩ := shown
  have present := (List.mem_filter.mp imported).1
  obtain ⟨place, stands⟩ := Array.mem_iff_getElem?.mp (Array.mem_toList_iff.mp present)
  have atOrigin : graph.classes[edge.shown.origin]? = some node := by
    rw [leaves, (wellFormed.classes place node stands).id, stands]
  refine ⟨edge.origin, rest, edge.target, edge.shown, node, rfl, ?_, shown, atOrigin, ?_⟩
  · exact (List.mem_cons.mp target).resolve_left different.symm
  · simp only [violation, inside, SliceEdge.location, atOrigin]

/-- The violations of one pattern report its cycles. -/
theorem checkPattern_reportsCycles (wellFormed : graph.WellFormed)
    (exact : graph.DependenciesExact) (pattern : PackagePattern) :
    ReportsCycles graph pattern (checkPattern graph pattern) := by
  have sameEdges : SliceEdge.Leads (SliceEdge.ofGraph pattern graph) =
      SliceDepends pattern graph := by
    funext origin target
    exact propext (SliceEdge.exists_mem_ofGraph_iff exact)
  have irreflexive : ∀ slice, ¬ SliceEdge.Leads (SliceEdge.ofGraph pattern graph) slice slice := by
    rw [sameEdges]
    rintro slice ⟨_, different, _⟩
    exact different rfl
  refine ⟨SliceEdge.cycles (SliceEdge.ofGraph pattern graph), ?_, ?_,
    SliceEdge.cycles_ordered _, SliceEdge.cycles_disjoint irreflexive⟩
  · rw [checkPattern, List.forall₂_map_right_iff, List.forall₂_same]
    intro cycle listed
    exact violation_reports wellFormed exact
      ((SliceEdge.mem_cycles_iff_isCycle irreflexive).mp listed)
  · intro cycle
    rw [SliceEdge.mem_cycles_iff_isCycle irreflexive, sameEdges]

/-- In the graph of any pool, the rule reports for each of its patterns, one after the other,
exactly the cycles between the slices of that pattern. -/
theorem check_reports_cycles (rule : CycleRule) (pool : ClassPool) :
    ∃ parts, rule.check pool.link.1 = parts.flatten ∧
      List.Forall₂ (ReportsCycles pool.link.1) rule.patterns parts := by
  have readable := @ClassPool.readable_of_mem_typedRecords pool
  have wellFormed : pool.link.1.WellFormed := Link.graph_wellFormed readable
  have exact : pool.link.1.DependenciesExact := ClassGraph.ofParts_dependenciesExact
    (fun id node stands => (wellFormed.classes id node stands).id)
    (Link.graph_componentsBefore readable)
  refine ⟨rule.patterns.map (checkPattern pool.link.1), rfl, ?_⟩
  rw [List.forall₂_map_right_iff, List.forall₂_same]
  intro pattern _
  exact checkPattern_reportsCycles wellFormed exact pattern

end CycleRule

end ClassAtlas
