import ClassAtlas.Proofs.AccessTargets
import ClassAtlas.Proofs.Dependencies
import ClassAtlas.Rule.Denied
import ClassAtlas.Rule.Layers

/-!
# Dependencies that rules forbid

Two rules forbid dependencies of classes by the packages of both ends: one by the layers that the
packages lie in, one by patterns. Either goes through the dependencies of a class and reports the
first on each other class that is forbidden. Whether a dependency is forbidden depends on its ends
alone, so that nothing is lost by looking at the first only. Since the dependencies are in order,
the first is the one with the least kind and line, and the classes depended on come in the order of
their numbers.

What the rules forbid is said here by the definitions that they were read from.
-/

namespace ClassAtlas

section Firsts

variable {α β ε κ : Type}

/-- The first of some values with a property. -/
def IsFirstWith (values : List α) (holds : α → Prop) (value : α) : Prop :=
  ∃ before after, values = before ++ value :: after ∧ holds value ∧ ∀ other ∈ before, ¬ holds other

/-- The first value with a property is the head if it has it, and else the first of the rest. -/
theorem isFirstWith_cons_iff {first : α} {rest : List α} {holds : α → Prop} {value : α} :
    IsFirstWith (first :: rest) holds value ↔
      holds first ∧ value = first ∨ ¬ holds first ∧ IsFirstWith rest holds value := by
  constructor
  · rintro ⟨before, after, division, isWith, fresh⟩
    cases before with
    | nil =>
      cases division
      exact Or.inl ⟨isWith, rfl⟩
    | cons _ before =>
      cases division
      exact Or.inr ⟨fresh _ List.mem_cons_self, before, after, rfl, isWith,
        fun other listed => fresh other (List.mem_cons_of_mem _ listed)⟩
  · rintro (⟨isWith, rfl⟩ | ⟨without, before, after, rfl, isWith, fresh⟩)
    · exact ⟨[], rest, rfl, isWith, by simp⟩
    · exact ⟨first :: before, after, rfl, isWith, List.forall_mem_cons.mpr ⟨without, fresh⟩⟩

/-- A value is kept exactly if it is the first with its key. -/
theorem mem_firstsBy_iff [DecidableEq κ] {key : α → κ} {values : List α} {value : α} :
    value ∈ firstsBy key values ↔
      IsFirstWith values (fun other => key other = key value) value := by
  induction values with
  | nil => simp [firstsBy, IsFirstWith]
  | cons first rest inductionHypothesis =>
    rw [firstsBy, List.mem_cons, List.mem_filter, inductionHypothesis, decide_eq_true_eq,
      isFirstWith_cons_iff, and_comm, ne_comm]
    refine or_congr_left ⟨?_, fun both => both.2⟩
    rintro rfl
    exact ⟨rfl, rfl⟩

/-- Of the values read from a list, the first that passes a test is read from the first entry of
which that can be told. -/
theorem find?_read_eq_some_iff {read : α → Except ε β} {texts : List α} {values : List β}
    (done : texts.mapM read = .ok values) {test : β → Bool} {holds : α → Prop}
    (agree : ∀ text value, read text = .ok value → (test value = true ↔ holds text)) {value : β} :
    values.find? test = some value ↔
      ∃ text, IsFirstWith texts holds text ∧ read text = .ok value := by
  have reads := mapM_eq_ok_iff.mp done
  clear done
  induction reads with
  | nil => simp [IsFirstWith]
  | @cons text first _ _ reading _ inductionHypothesis =>
    simp only [isFirstWith_cons_iff]
    by_cases passes : test first = true
    · have isWith := (agree text first reading).mp passes
      simp [passes, isWith, reading]
    · have without : ¬ holds text := fun isWith => passes ((agree text first reading).mpr isWith)
      rw [List.find?_cons_of_neg passes]
      simpa [without] using inductionHypothesis

end Firsts

/-! ## First dependencies -/

namespace Dependency

/-- A dependency comes no later than another, by kind and then by line. -/
def Precedes (earlier later : Dependency) : Prop :=
  earlier.kind.rank < later.kind.rank ∨
    earlier.kind = later.kind ∧ lineKey earlier.line ≤ lineKey later.line

/-- Between the same two classes, dependencies are in the order of kind and line. -/
theorem precedes_of_key_le {left right : Dependency} (origin : left.origin = right.origin)
    (target : left.target = right.target) (inOrder : left.key ≤ right.key) :
    left.Precedes right := by
  simp only [key, origin, target, Prod.Lex.toLex_le_toLex, lt_irrefl, false_or, true_and] at inOrder
  exact inOrder.imp id fun both => ⟨DependencyKind.rank_injective both.1, both.2⟩

end Dependency

namespace ClassGraph

/-- The first dependency of a class on another. -/
structure IsFirst (graph : ClassGraph) (origin target : ClassId) (dependency : Dependency) :
    Prop where
  present : dependency ∈ graph.dependencies
  leaves : dependency.origin = origin
  reaches : dependency.target = target
  least : ∀ other ∈ graph.dependencies, other.origin = origin → other.target = target →
    dependency.Precedes other

/-- A class depends on another. -/
def DependsOn (graph : ClassGraph) (origin target : ClassId) : Prop :=
  ∃ dependency ∈ graph.dependencies, dependency.origin = origin ∧ dependency.target = target

/-- The first dependencies of a class on each other class. -/
def firstDependencies (graph : ClassGraph) (origin : ClassId) : List Dependency :=
  firstsBy Dependency.target (graph.dependenciesOf origin)

variable {graph : ClassGraph} (exact : graph.DependenciesExact)

include exact

/-- The dependencies of a class are those of the graph that start at it. -/
theorem mem_dependenciesOf_iff {origin : ClassId} {dependency : Dependency} :
    dependency ∈ graph.dependenciesOf origin ↔
      dependency ∈ graph.dependencies ∧ dependency.origin = origin := by
  rw [exact.outgoing, List.mem_filter, decide_eq_true_eq, Array.mem_toList_iff]

/-- The dependencies of a class are sorted by their keys, without repetition. -/
theorem dependenciesOf_increasing (origin : ClassId) :
    (graph.dependenciesOf origin).Pairwise fun left right => left.key < right.key := by
  rw [exact.outgoing]
  exact exact.increasing.filter _

/-- What is kept of the dependencies of a class are its first ones. -/
theorem isFirst_of_mem {origin : ClassId} {dependency : Dependency}
    (kept : dependency ∈ graph.firstDependencies origin) :
    graph.IsFirst origin dependency.target dependency := by
  obtain ⟨before, after, division, _, fresh⟩ := mem_firstsBy_iff.mp kept
  have listed : dependency ∈ graph.dependenciesOf origin := by simp [division]
  obtain ⟨present, leaves⟩ := (mem_dependenciesOf_iff exact).mp listed
  refine ⟨present, leaves, rfl, fun other otherPresent otherLeaves same => ?_⟩
  refine Dependency.precedes_of_key_le (leaves.trans otherLeaves.symm) same.symm ?_
  -- An earlier one would have the same target, and later ones have greater keys.
  have otherListed := (mem_dependenciesOf_iff exact).mpr ⟨otherPresent, otherLeaves⟩
  have increasing := dependenciesOf_increasing exact origin
  rw [division] at increasing
  rw [division, List.mem_append, List.mem_cons] at otherListed
  rcases otherListed with earlier | rfl | later
  · exact absurd same (fresh other earlier)
  · exact le_rfl
  · exact ((List.pairwise_cons.mp (List.pairwise_append.mp increasing).2.1).1 other later).le

/-- Every class depended on has a first dependency that is kept. -/
theorem exists_mem_firstDependencies_iff {origin target : ClassId} :
    (∃ dependency ∈ graph.firstDependencies origin, dependency.target = target) ↔
      graph.DependsOn origin target := by
  have kept := mem_map_firstsBy Dependency.target (graph.dependenciesOf origin) target
  simp only [List.mem_map, mem_dependenciesOf_iff exact, and_assoc] at kept
  exact kept

/-- The classes depended on come in the order of their numbers. -/
theorem firstDependencies_ascending (origin : ClassId) :
    (graph.firstDependencies origin).Pairwise fun left right => left.target < right.target := by
  have sublist := firstsBy_sublist Dependency.target (graph.dependenciesOf origin)
  have increasing := dependenciesOf_increasing exact origin
  have distinct := List.pairwise_map.mp
    (nodup_map_firstsBy Dependency.target (graph.dependenciesOf origin))
  refine ((increasing.sublist sublist).and distinct).imp_of_mem ?_
  rintro left right isLeft isRight ⟨less, different⟩
  have leftLeaves := (isFirst_of_mem exact isLeft).leaves
  have rightLeaves := (isFirst_of_mem exact isRight).leaves
  simp only [Dependency.key, leftLeaves, rightLeaves, Prod.Lex.toLex_lt_toLex, lt_irrefl, false_or,
    true_and] at less
  exact less.resolve_right fun both => different both.1

end ClassGraph

/-! ## Reports of first dependencies -/

/-- Violations report the dependencies that are forbidden by their ends: for each imported class and
each class that it must not but does depend on, the first dependency. They are in the order of the
numbers of both ends. -/
def ReportsForbidden (graph : ClassGraph) (forbids : ClassNode → ClassId → Prop)
    (reports : ClassNode → Dependency → Violation → Prop) (violations : List Violation) : Prop :=
  ∃ rows : List (ClassNode × Dependency),
    List.Forall₂ (fun row violation => reports row.1 row.2 violation) rows violations ∧
    (∀ node target, (∃ dependency, (node, dependency) ∈ rows ∧ dependency.target = target) ↔
      node ∈ graph.importedClasses ∧ graph.DependsOn node.id target ∧ forbids node target) ∧
    (∀ row ∈ rows, graph.IsFirst row.1.id row.2.target row.2) ∧
    rows.Pairwise fun left right => left.1.id < right.1.id ∨
      left.1.id = right.1.id ∧ left.2.target < right.2.target

/-- Imported classes are numbered in the order in which they are listed. -/
theorem ClassGraph.WellFormed.importedClasses_ascending {graph : ClassGraph}
    (wellFormed : graph.WellFormed) :
    graph.importedClasses.Pairwise fun left right => left.id < right.id := by
  refine List.Pairwise.filter _ (List.pairwise_iff_getElem.mpr ?_)
  intro left right leftInside rightInside less
  have atLeft : graph.classes[left]? = some graph.classes.toList[left] := by simp
  have atRight : graph.classes[right]? = some graph.classes.toList[right] := by simp
  rw [(wellFormed.classes _ _ atLeft).id, (wellFormed.classes _ _ atRight).id]
  exact less

section Finding

variable (graph : ClassGraph) (find : ClassNode → Dependency → Option Violation)

/-- What is found by looking at the first dependencies of all imported classes. -/
def findings : List Violation :=
  graph.importedClasses.flatMap fun node =>
    (graph.firstDependencies node.id).filterMap (find node)

/-- The dependencies at which something is found. -/
def foundRows : List (ClassNode × Dependency) :=
  graph.importedClasses.flatMap fun node =>
    (graph.firstDependencies node.id).filterMap fun dependency =>
      (find node dependency).map fun _ => (node, dependency)

variable {graph find}

/-- The rows at which something is found. -/
theorem mem_foundRows_iff {node : ClassNode} {dependency : Dependency} :
    (node, dependency) ∈ foundRows graph find ↔
      node ∈ graph.importedClasses ∧ dependency ∈ graph.firstDependencies node.id ∧
        (find node dependency).isSome = true := by
  simp only [foundRows, List.mem_flatMap, List.mem_filterMap, Option.map_eq_some_iff,
    Option.isSome_iff_exists]
  constructor
  · rintro ⟨_, imported, _, kept, violation, found, ⟨⟩⟩
    exact ⟨imported, kept, violation, found⟩
  · rintro ⟨imported, kept, violation, found⟩
    exact ⟨node, imported, dependency, kept, violation, found, rfl⟩

/-- Each finding is made at its row. -/
theorem foundRows_findings : List.Forall₂ (fun row violation => find row.1 row.2 = some violation)
    (foundRows graph find) (findings graph find) := by
  refine List.rel_flatMap (R := Eq) (by simp) ?_
  rintro node _ rfl
  refine List.rel_filterMap (R := Eq) ?_ (by simp)
  rintro dependency _ rfl
  dsimp only
  cases found : find node dependency with
  | none => exact .none
  | some violation =>
    rw [Option.map_some]
    exact .some found

/-- Findings are in the order of the numbers of both ends. -/
theorem foundRows_ascending (wellFormed : graph.WellFormed) (exact : graph.DependenciesExact) :
    (foundRows graph find).Pairwise fun left right => left.1.id < right.1.id ∨
      left.1.id = right.1.id ∧ left.2.target < right.2.target := by
  rw [foundRows, List.pairwise_flatMap]
  constructor
  · intro node _
    rw [List.pairwise_filterMap]
    refine (ClassGraph.firstDependencies_ascending exact node.id).imp fun less => ?_
    intro first isFirst second isSecond
    obtain ⟨_, _, rfl⟩ := Option.map_eq_some_iff.mp isFirst
    obtain ⟨_, _, rfl⟩ := Option.map_eq_some_iff.mp isSecond
    exact Or.inr ⟨rfl, less⟩
  · refine wellFormed.importedClasses_ascending.imp fun less => ?_
    intro first isFirst second isSecond
    obtain ⟨_, _, found⟩ := List.mem_filterMap.mp isFirst
    obtain ⟨_, _, rfl⟩ := Option.map_eq_some_iff.mp found
    obtain ⟨_, _, found⟩ := List.mem_filterMap.mp isSecond
    obtain ⟨_, _, rfl⟩ := Option.map_eq_some_iff.mp found
    exact Or.inl less

/-- Findings report what is forbidden, if something is found at a dependency exactly if its ends are
forbidden. -/
theorem findings_reportsForbidden (wellFormed : graph.WellFormed)
    (exact : graph.DependenciesExact) {forbids : ClassNode → ClassId → Prop}
    {reports : ClassNode → Dependency → Violation → Prop}
    (finds : ∀ node dependency,
      (find node dependency).isSome = true ↔ forbids node dependency.target)
    (sound : ∀ node dependency violation,
      find node dependency = some violation → reports node dependency violation) :
    ReportsForbidden graph forbids reports (findings graph find) := by
  refine ⟨foundRows graph find, foundRows_findings.imp fun _ _ => sound _ _ _, ?_, ?_,
    foundRows_ascending wellFormed exact⟩
  · intro node target
    rw [← ClassGraph.exists_mem_firstDependencies_iff exact]
    constructor
    · rintro ⟨dependency, listed, rfl⟩
      obtain ⟨imported, kept, found⟩ := mem_foundRows_iff.mp listed
      exact ⟨imported, ⟨dependency, kept, rfl⟩, (finds node dependency).mp found⟩
    · rintro ⟨imported, ⟨dependency, kept, rfl⟩, forbidden⟩
      have found := (finds node dependency).mpr forbidden
      exact ⟨dependency, mem_foundRows_iff.mpr ⟨imported, kept, found⟩, rfl⟩
  · rintro ⟨node, dependency⟩ listed
    exact ClassGraph.isFirst_of_mem exact (mem_foundRows_iff.mp listed).2.1

end Finding

/-! ## Patterns and layers as defined -/

/-- A pattern, given by its text, takes a package. -/
def PackagePattern.Covers (text package : String) : Prop :=
  ∃ pattern, parse text = .ok pattern ∧ pattern.accepts package = true

/-- A layer has a pattern that takes a package. -/
def LayerDefinition.Holds (definition : LayerDefinition) (package : String) : Prop :=
  ∃ text ∈ definition.packages, PackagePattern.Covers text package

/-- A package lies in the layer that is the first defined of those that have it. -/
def RuleDefinitions.InLayer (definitions : RuleDefinitions) (package layer : String) : Prop :=
  ∃ definition, IsFirstWith definitions.layers (fun other => other.Holds package) definition ∧
    definition.name = layer

namespace PackagePattern

/-- Where a pattern stands matters for its errors only. -/
theorem parseAt_eq_ok_iff {place : PatternPlace} {text : String} {pattern : PackagePattern} :
    parseAt place text = .ok pattern ↔ parse text = .ok pattern := by
  rw [parseAt]
  cases parse text <;> simp

/-- A pattern keeps the text that it was parsed from. -/
theorem text_of_parse {text : String} {pattern : PackagePattern}
    (parsed : parse text = .ok pattern) : pattern.text = text := by
  rw [parse] at parsed
  split at parsed
  · cases parsed
    rfl
  · cases parsed

/-- A pattern accepts the packages that its text covers. -/
theorem accepts_iff_covers {text package : String} {pattern : PackagePattern}
    (parsed : parse text = .ok pattern) : pattern.accepts package = true ↔ Covers text package := by
  simp [Covers, parsed]

end PackagePattern

namespace Layer

/-- A layer is made of its name and its parsed patterns. -/
theorem ofDefinition_eq_ok_iff {definition : LayerDefinition} {layer : Layer} :
    ofDefinition definition = .ok layer ↔
      definition.packages.mapM (PackagePattern.parseAt (.layer definition.name)) =
        .ok layer.patterns ∧ definition.name = layer.name := by
  obtain ⟨name, patterns⟩ := layer
  simp only [ofDefinition, bind_eq_ok_iff, pure, Except.pure, Except.ok.injEq, mk.injEq]
  constructor
  · rintro ⟨_, read, named, rfl⟩
    exact ⟨read, named⟩
  · rintro ⟨read, named⟩
    exact ⟨patterns, read, named, rfl⟩

/-- A layer accepts the packages that its definition has. -/
theorem accepts_iff_holds {definition : LayerDefinition} {layer : Layer}
    (read : ofDefinition definition = .ok layer) {package : String} :
    layer.accepts package = true ↔ definition.Holds package := by
  rw [accepts, List.any_eq_true]
  exact exists_mem_read_iff (ofDefinition_eq_ok_iff.mp read).1 fun text pattern parsed =>
    PackagePattern.accepts_iff_covers (PackagePattern.parseAt_eq_ok_iff.mp parsed)

/-- Packages are resolved to the layers that they lie in. -/
theorem resolve?_eq_some_iff {definitions : RuleDefinitions} {layers : List Layer}
    (read : definitions.layers.mapM ofDefinition = .ok layers) {package name : String} :
    resolve? layers package = some name ↔ definitions.InLayer package name := by
  simp only [resolve?, Option.map_eq_some_iff,
    find?_read_eq_some_iff read fun _ _ read => accepts_iff_holds read]
  constructor
  · rintro ⟨layer, ⟨definition, isFirst, read⟩, rfl⟩
    exact ⟨definition, isFirst, (ofDefinition_eq_ok_iff.mp read).2⟩
  · rintro ⟨definition, isFirst, rfl⟩
    have ⟨before, after, division, _⟩ := isFirst
    have listed : definition ∈ definitions.layers := by simp [division]
    rw [← map_fst_zip_read read] at listed
    obtain ⟨⟨_, layer⟩, paired, rfl⟩ := List.mem_map.mp listed
    have readLayer := read_of_mem_zip read paired
    exact ⟨layer, ⟨_, isFirst, readLayer⟩, (ofDefinition_eq_ok_iff.mp readLayer).2.symm⟩

end Layer

/-- A class that implements `b.I` and calls it, and calls `c.A` on two lines. -/
def layeredPool : ClassPool :=
  samplePool
    [sampleClass "a.C" 0x0021 ["b.I"]
      [sampleMethod "m" "()V" 0x0001
        [{ kind := .methodCall, owner := "b.I", name := "n", descriptor := "()V", line := 3 },
          { kind := .methodCall, owner := "c.A", name := "n", descriptor := "()V", line := 5 },
          { kind := .methodCall, owner := "c.A", name := "n", descriptor := "()V", line := 4 }]]]

/-! ## The layer rule -/

namespace LayerRule

/-- A class must not depend on another: both lie in layers, and in different ones, and the layer of
the other is not among those that the first may depend on. -/
def Forbids (definitions : RuleDefinitions) (graph : ClassGraph) (node : ClassNode)
    (target : ClassId) : Prop :=
  ∃ lower upper, definitions.InLayer node.package lower ∧
    definitions.InLayer (graph.packageOf target) upper ∧ lower ≠ upper ∧
    ∀ allowed, definitions.allowed? lower = some allowed → upper ∉ allowed

/-- A violation reports a dependency: it stands at the class, on the line of the dependency if that
is known, and names both layers and what kind of dependency there is. -/
structure Reports (definitions : RuleDefinitions) (graph : ClassGraph) (node : ClassNode)
    (dependency : Dependency) (violation : Violation) : Prop where
  rule : violation.code = code ∧ violation.rule = name ∧ violation.severity = .error
  location : violation.location =
    ⟨node.name, node.source?.bind Source.fileName, dependency.line.filter (0 < ·)⟩
  message : ∃ lower upper, definitions.InLayer node.package lower ∧
    definitions.InLayer (graph.packageOf dependency.target) upper ∧
    violation.message = lower ++ " -> " ++ upper ++ " dependency not allowed: " ++
      (graph.className dependency.origin ++ " " ++ dependency.kind.phrase ++ " " ++
        graph.className dependency.target)

/-- The violation by one dependency of a class, if there is one. -/
def finding? (rule : LayerRule) (graph : ClassGraph) (node : ClassNode) (dependency : Dependency) :
    Option Violation :=
  (Layer.resolve? rule.layers node.package).bind fun origin =>
    (rule.forbidden? graph origin dependency).map fun target =>
      rule.violation graph node origin target dependency

/-- The rule of layers reports its findings at first dependencies. -/
theorem check_eq_findings (rule : LayerRule) (graph : ClassGraph) :
    rule.check graph = findings graph (rule.finding? graph) := by
  refine List.flatMap_congr fun node _ => ?_
  rw [checkClass]
  cases resolved : Layer.resolve? rule.layers node.package with
  | none => simp [finding?, resolved]
  | some origin =>
    refine List.filterMap_congr fun dependency _ => ?_
    rw [finding?, resolved, Option.bind_some]

variable {definitions : RuleDefinitions} {rule : LayerRule}

/-- A layer may depend on itself and on the layers listed for it. -/
theorem allows_eq_false_iff (read : ofDefinitions definitions = .ok rule) {lower upper : String} :
    rule.allows lower upper = false ↔
      lower ≠ upper ∧ ∀ allowed, definitions.allowed? lower = some allowed → upper ∉ allowed := by
  obtain ⟨layers, _, ⟨⟩⟩ := bind_eq_ok_iff.mp read
  have listed : targets ⟨layers, definitions.dependencies⟩ lower =
      (definitions.allowed? lower).getD [] := rfl
  rw [allows, listed]
  cases definitions.allowed? lower with
  | none => simp
  | some allowed => simp

/-- There is a violation exactly by a dependency between layers that must not depend so. -/
theorem finding?_eq_some_iff (read : ofDefinitions definitions = .ok rule) {graph : ClassGraph}
    {node : ClassNode} {dependency : Dependency} {violation : Violation} :
    rule.finding? graph node dependency = some violation ↔
      ∃ lower upper, definitions.InLayer node.package lower ∧
        definitions.InLayer (graph.packageOf dependency.target) upper ∧ lower ≠ upper ∧
        (∀ allowed, definitions.allowed? lower = some allowed → upper ∉ allowed) ∧
        rule.violation graph node lower upper dependency = violation := by
  have ⟨_, readLayers, made⟩ := bind_eq_ok_iff.mp read
  have layers : definitions.layers.mapM Layer.ofDefinition = .ok rule.layers := by
    cases made
    exact readLayers
  simp only [finding?, forbidden?, Option.bind_eq_some_iff, Option.map_eq_some_iff,
    Option.filter_eq_some_iff, Layer.resolve?_eq_some_iff layers, Bool.not_eq_true',
    allows_eq_false_iff read]
  constructor
  · rintro ⟨lower, inLower, upper, ⟨inUpper, different, unlisted⟩, same⟩
    exact ⟨lower, upper, inLower, inUpper, different, unlisted, same⟩
  · rintro ⟨lower, upper, inLower, inUpper, different, unlisted, same⟩
    exact ⟨lower, inLower, upper, ⟨inUpper, different, unlisted⟩, same⟩

/-- In the graph of any pool, the rule reports exactly the dependencies of imported classes on
classes of layers that the definitions do not allow them, each pair of classes once. -/
theorem check_reports_forbidden (read : ofDefinitions definitions = .ok rule) (pool : ClassPool) :
    ReportsForbidden pool.link.1 (Forbids definitions pool.link.1)
      (Reports definitions pool.link.1) (rule.check pool.link.1) := by
  rw [check_eq_findings]
  refine findings_reportsForbidden pool.link_exact.1 pool.link_exact.2 ?_ ?_
  · intro node dependency
    rw [Option.isSome_iff_exists]
    simp only [finding?_eq_some_iff read]
    constructor
    · rintro ⟨_, lower, upper, inLower, inUpper, different, unlisted, _⟩
      exact ⟨lower, upper, inLower, inUpper, different, unlisted⟩
    · rintro ⟨lower, upper, inLower, inUpper, different, unlisted⟩
      exact ⟨_, lower, upper, inLower, inUpper, different, unlisted, rfl⟩
  · intro node dependency violation found
    obtain ⟨lower, upper, inLower, inUpper, _, _, rfl⟩ := (finding?_eq_some_iff read).mp found
    exact ⟨⟨rfl, rfl, rfl⟩, rfl, lower, upper, inLower, inUpper, rfl⟩

/-- Two layers that must not depend on each other. -/
def layeredDefinitions : RuleDefinitions :=
  { layers := [⟨"a", ["a"]⟩, ⟨"b", ["b", "c"]⟩], dependencies := [("a", []), ("b", [])] }

/-- Of four dependencies two are reported, one for each class depended on. -/
theorem check_reports_forbidden_layered :
    ∃ rule, ofDefinitions layeredDefinitions = .ok rule ∧
      ((rule.check layeredPool.link.1).map fun violation =>
        (violation.message, violation.location.line)) =
        [("a -> b dependency not allowed: a.C implements b.I", none),
          ("a -> b dependency not allowed: a.C calls method of c.A", some 4)] ∧
      ReportsForbidden layeredPool.link.1 (Forbids layeredDefinitions layeredPool.link.1)
        (Reports layeredDefinitions layeredPool.link.1) (rule.check layeredPool.link.1) := by
  refine ⟨⟨[⟨"a", [⟨"a", [.literal "a"]⟩]⟩, ⟨"b", [⟨"b", [.literal "b"]⟩, ⟨"c", [.literal "c"]⟩]⟩],
    [("a", []), ("b", [])]⟩, rfl, ?_, check_reports_forbidden rfl layeredPool⟩
  simp only [check_eq_findings, findings, ClassGraph.firstDependencies,
    ClassPool.dependenciesOf_link]
  decide +kernel

end LayerRule

/-! ## The deny rule -/

namespace DenyRule

/-- An entry denies a class to depend on another: the class lies in the packages that the entry is
about, and the other in packages of one of its targets. -/
def Denies (definition : DenyDefinition) (graph : ClassGraph) (node : ClassNode)
    (target : ClassId) : Prop :=
  PackagePattern.Covers definition.origin node.package ∧
    ∃ text ∈ definition.targets, PackagePattern.Covers text (graph.packageOf target)

/-- A violation reports a dependency that an entry denies: it stands at the class, on the line of
the dependency if that is known. Without a message of its own, the entry lets it name the kind of
dependency and the first target that has the class depended on. -/
structure Reports (definition : DenyDefinition) (graph : ClassGraph) (node : ClassNode)
    (dependency : Dependency) (violation : Violation) : Prop where
  rule : violation.code = code ∧ violation.rule = name ∧
    violation.severity = definition.severity.getD .error
  location : violation.location =
    ⟨node.name, node.source?.bind Source.fileName, dependency.line.filter (0 < ·)⟩
  custom : ∀ message, definition.message = some message → violation.message = message
  message : definition.message = none → ∃ text,
    IsFirstWith definition.targets
      (fun other => PackagePattern.Covers other (graph.packageOf dependency.target)) text ∧
    violation.message = graph.className dependency.origin ++ " " ++ dependency.kind.phrase ++ " " ++
      graph.className dependency.target ++ ", but '" ++ definition.origin ++
        "' must not depend on '" ++ text ++ "'"

/-- The violation of a denial by one dependency of a class, if there is one. -/
def finding? (denial : Denial) (graph : ClassGraph) (node : ClassNode) (dependency : Dependency) :
    Option Violation :=
  if denial.origin.accepts node.package then
    (denial.pattern? graph dependency).map (violation graph denial node dependency)
  else none

/-- A denial reports its findings at first dependencies, class by class. -/
theorem flatMap_checkClass (denial : Denial) (graph : ClassGraph) :
    graph.importedClasses.flatMap (checkClass graph denial) =
      findings graph (finding? denial graph) := by
  refine List.flatMap_congr fun node _ => ?_
  rw [checkClass]
  split
  · rename_i accepted
    refine List.filterMap_congr fun dependency _ => ?_
    rw [finding?, if_pos accepted]
  · rename_i refused
    simp [finding?, refused]

end DenyRule

/-- What the parts of a denial are read from. -/
theorem Denial.ofDefinition_eq_ok_iff {definition : DenyDefinition} {index : Nat}
    {denial : Denial} : ofDefinition (definition, index) = .ok denial ↔
      PackagePattern.parse definition.origin = .ok denial.origin ∧
      definition.targets.mapM PackagePattern.parse = .ok denial.targets ∧
      definition.message = denial.message ∧ definition.severity = denial.severity := by
  obtain ⟨origin, targets, message, severity⟩ := denial
  simp only [ofDefinition, bind_eq_ok_iff, pure, Except.pure, Except.ok.injEq, mk.injEq,
    PackagePattern.parseAt_eq_ok_iff, mapM_eq_ok_iff]
  constructor
  · rintro ⟨_, readOrigin, _, readTargets, rfl, rfl, sameMessage, sameSeverity⟩
    exact ⟨readOrigin, readTargets, sameMessage, sameSeverity⟩
  · rintro ⟨readOrigin, readTargets, sameMessage, sameSeverity⟩
    exact ⟨_, readOrigin, _, readTargets, rfl, rfl, sameMessage, sameSeverity⟩

namespace DenyRule

/-- There is a violation exactly by a dependency that the entry denies. The pattern that it names
is the first. -/
theorem finding?_eq_some_iff {definition : DenyDefinition} {index : Nat} {denial : Denial}
    (read : Denial.ofDefinition (definition, index) = .ok denial) {graph : ClassGraph}
    {node : ClassNode} {dependency : Dependency} {found : Violation} :
    finding? denial graph node dependency = some found ↔
      PackagePattern.Covers definition.origin node.package ∧ ∃ text pattern,
        IsFirstWith definition.targets
          (fun other => PackagePattern.Covers other (graph.packageOf dependency.target)) text ∧
        PackagePattern.parse text = .ok pattern ∧
        violation graph denial node dependency pattern = found := by
  obtain ⟨readOrigin, readTargets, _, _⟩ := Denial.ofDefinition_eq_ok_iff.mp read
  rw [finding?, Denial.pattern?, ← PackagePattern.accepts_iff_covers readOrigin,
    Option.ite_none_right_eq_some, Option.map_eq_some_iff]
  simp only [find?_read_eq_some_iff readTargets fun _ _ parsed =>
    PackagePattern.accepts_iff_covers parsed]
  grind

/-- The violations of one entry report what it denies. -/
theorem findings_reportsDenied {graph : ClassGraph} (wellFormed : graph.WellFormed)
    (exact : graph.DependenciesExact) {definition : DenyDefinition} {index : Nat} {denial : Denial}
    (read : Denial.ofDefinition (definition, index) = .ok denial) :
    ReportsForbidden graph (Denies definition graph) (Reports definition graph)
      (findings graph (finding? denial graph)) := by
  obtain ⟨readOrigin, readTargets, sameMessage, sameSeverity⟩ :=
    Denial.ofDefinition_eq_ok_iff.mp read
  refine findings_reportsForbidden wellFormed exact ?_ ?_
  · intro node dependency
    rw [finding?, Denial.pattern?, Denies, ← PackagePattern.accepts_iff_covers readOrigin,
      ← exists_mem_read_iff readTargets fun _ _ parsed => PackagePattern.accepts_iff_covers parsed]
    by_cases accepted : denial.origin.accepts node.package = true <;> simp [accepted]
  · intro node dependency found isFound
    obtain ⟨_, text, pattern, isFirst, parsed, rfl⟩ := (finding?_eq_some_iff read).mp isFound
    refine ⟨⟨rfl, rfl, sameSeverity ▸ rfl⟩, rfl, ?_, ?_⟩
    · intro message isMessage
      rw [violation, Denial.text, ← sameMessage, isMessage, Option.getD_some]
    · intro noMessage
      refine ⟨text, isFirst, ?_⟩
      rw [violation, Denial.text, ← sameMessage, noMessage, Option.getD_none,
        PackagePattern.text_of_parse readOrigin, PackagePattern.text_of_parse parsed]
      rfl

/-- In the graph of any pool, the rule reports for each of its entries, one after the other, exactly
the dependencies of imported classes that the entry denies, each pair of classes once. -/
theorem check_reports_denied {definitions : List DenyDefinition} {rule : DenyRule}
    (read : ofDefinitions definitions = .ok rule) (pool : ClassPool) :
    ∃ parts, rule.check pool.link.1 = parts.flatten ∧
      List.Forall₂ (fun definition => ReportsForbidden pool.link.1
        (Denies definition pool.link.1) (Reports definition pool.link.1)) definitions parts := by
  obtain ⟨denials, readAll, ⟨⟩⟩ := bind_eq_ok_iff.mp read
  refine ⟨denials.map fun denial => findings pool.link.1 (finding? denial pool.link.1), ?_, ?_⟩
  · simp only [← flatMap_checkClass]
    rfl
  · rw [List.forall₂_map_right_iff, ← List.zipIdx_map_fst 0 definitions,
      List.forall₂_map_left_iff]
    exact (mapM_eq_ok_iff.mp readAll).imp fun _ _ readOne =>
      findings_reportsDenied pool.link_exact.1 pool.link_exact.2 readOne

/-- Two entries that deny the same dependencies, the first by the second of its targets. -/
def overlappingDenials : List DenyDefinition :=
  [{ origin := "a", targets := ["a", "..", "b"], severity := some .warning },
    { origin := "..", targets := ["b", "c"], message := some "no" }]

/-- Both entries are reported, each for both classes depended on. -/
theorem check_reports_denied_overlapping :
    ∃ rule, ofDefinitions overlappingDenials = .ok rule ∧
      ((rule.check layeredPool.link.1).map fun violation =>
        (violation.message, violation.severity, violation.location.line)) =
        [("a.C implements b.I, but 'a' must not depend on '..'", .warning, none),
          ("a.C calls method of c.A, but 'a' must not depend on '..'", .warning, some 4),
          ("no", .error, none), ("no", .error, some 4)] ∧
      ∃ parts, rule.check layeredPool.link.1 = parts.flatten ∧
        List.Forall₂ (fun definition => ReportsForbidden layeredPool.link.1
          (Denies definition layeredPool.link.1)
          (Reports definition layeredPool.link.1)) overlappingDenials parts := by
  refine ⟨⟨[⟨⟨"a", [.literal "a"]⟩,
        [⟨"a", [.literal "a"]⟩, ⟨"..", [.many]⟩, ⟨"b", [.literal "b"]⟩], none, some .warning⟩,
      ⟨⟨"..", [.many]⟩, [⟨"b", [.literal "b"]⟩, ⟨"c", [.literal "c"]⟩], some "no", none⟩]⟩,
    rfl, ?_, check_reports_denied rfl layeredPool⟩
  simp only [check, flatMap_checkClass, findings, ClassGraph.firstDependencies,
    ClassPool.dependenciesOf_link]
  decide +kernel

end DenyRule

end ClassAtlas
