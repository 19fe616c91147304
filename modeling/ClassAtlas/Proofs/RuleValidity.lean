import ClassAtlas.Proofs.ReportedDependencies
import ClassAtlas.Rule.Catalogue

/-!
# Valid rule definitions

Definitions are checked in one pass that stops at the first problem: layers, what they may depend
on, denied dependencies, slices. Here it is said, without an order of checks, what definitions have
to be, and the pass is shown to end well exactly for these. In particular the entries that say what
a layer may depend on can come in any order.

The rules read all patterns a second time. After the checks nothing can go wrong there, so that the
problems of definitions are those that the checks report.
-/

namespace ClassAtlas

section Checks

variable {α β ε : Type}

/-- A check in front of a step lets the step through exactly where it finds no fault. -/
theorem guard_eq_ok_iff {condition : Prop} [Decidable condition] {fault : ε}
    {next : Unit → Except ε β} {result : β} :
    (if condition then throw fault >>= next else next ()) = .ok result ↔
      ¬condition ∧ next () = .ok result := by
  by_cases fails : condition
  · simp [fails, throw, throwThe, MonadExceptOf.throw, bind, Except.bind]
  · simp [fails]

/-- A check that throws on a condition passes without it. -/
theorem unless_eq_ok_iff {condition : Prop} [Decidable condition] {fault : ε} :
    (if condition then throw fault else pure () : Except ε Unit) = .ok () ↔ ¬condition := by
  by_cases fails : condition
  · simp [fails, throw, throwThe, MonadExceptOf.throw]
  · simp [fails, pure, Except.pure]

/-- Two checks in a row find no fault exactly when neither does. -/
theorem andThen_eq_ok_iff {first : Except ε Unit} {second : Unit → Except ε β} {result : β} :
    first >>= second = .ok result ↔ first = .ok () ∧ second () = .ok result := by
  rw [bind_eq_ok_iff]
  constructor
  · rintro ⟨⟨⟩, checked, later⟩
    exact ⟨checked, later⟩
  · rintro ⟨checked, later⟩
    exact ⟨(), checked, later⟩

/-- A reading whose value is not wanted finds no fault exactly when there is a value. -/
theorem bind_pure_eq_ok_iff {read : Except ε α} :
    (read >>= fun _ => pure ()) = .ok () ↔ ∃ value, read = .ok value := by
  rw [bind_eq_ok_iff]
  simp [pure, Except.pure]

/-- A list is checked exactly when each entry is. -/
theorem forM_eq_ok_iff {check : α → Except ε Unit} {entries : List α} :
    entries.forM check = .ok () ↔ ∀ entry ∈ entries, check entry = .ok () := by
  induction entries with
  | nil => simp [List.forM, pure, Except.pure]
  | cons entry rest inductionHypothesis =>
    rw [List.forall_mem_cons, ← inductionHypothesis]
    exact andThen_eq_ok_iff

/-- If a check does not depend on the places of entries, it can be made on the entries alone. -/
theorem forM_zipIdx_eq_ok_iff {check : α × Nat → Except ε Unit} {holds : α → Prop}
    (same : ∀ entry, check entry = .ok () ↔ holds entry.1) {entries : List α} :
    entries.zipIdx.forM check = .ok () ↔ ∀ entry ∈ entries, holds entry := by
  simp only [forM_eq_ok_iff, same]
  rw [← List.forall_mem_map, List.zipIdx_map_fst]

end Checks

/-- The text can be read as a package pattern. -/
def PackagePattern.Readable (text : String) : Prop :=
  ∃ pattern, parse text = .ok pattern

/-- Readable patterns can be parsed wherever they stand. -/
theorem PackagePattern.exists_parseAt_iff {place : PatternPlace} {text : String} :
    (∃ pattern, parseAt place text = .ok pattern) ↔ Readable text := by
  simp only [parseAt_eq_ok_iff, Readable]

namespace RuleDefinitions

/-- All texts of definitions that stand for package patterns. -/
def patternTexts (definitions : RuleDefinitions) : List String :=
  definitions.layers.flatMap LayerDefinition.packages ++
    definitions.denied.flatMap (fun entry => entry.origin :: entry.targets) ++ definitions.cycles

/-- What definitions have to be for rules to be built from them. -/
structure Valid (definitions : RuleDefinitions) : Prop where
  /-- No two layers share a name. -/
  distinct : definitions.layerNames.Nodup
  /-- Every layer has packages. -/
  inhabited : ∀ layer ∈ definitions.layers, layer.packages ≠ []
  /-- Every pattern can be read. -/
  readable : ∀ text ∈ definitions.patternTexts, PackagePattern.Readable text
  /-- There is an entry of dependencies for each layer, and for nothing else. -/
  entries : ∀ name, name ∈ definitions.dependencies.map Prod.fst ↔ name ∈ definitions.layerNames
  /-- Layers depend on other layers. -/
  targets : ∀ entry ∈ definitions.dependencies, ∀ target ∈ entry.2,
    target ∈ definitions.layerNames ∧ target ≠ entry.1
  /-- Every denial denies something. -/
  denials : ∀ entry ∈ definitions.denied, entry.targets ≠ []
  /-- Slices are told apart by one capture. -/
  captures : ∀ text ∈ definitions.cycles, ∀ pattern, PackagePattern.parse text = .ok pattern →
    pattern.captureCount = 1

/-! ## The checks one by one -/

/-- The checks of layers, after layers of some names. -/
theorem validateLayers_eq_ok_iff {seen : List String} {layers : List LayerDefinition} :
    validateLayers seen layers = .ok () ↔
      (layers.map LayerDefinition.name).Nodup ∧ (∀ layer ∈ layers, layer.name ∉ seen) ∧
        ∀ layer ∈ layers, layer.packages ≠ [] ∧
          ∀ text ∈ layer.packages, PackagePattern.Readable text := by
  induction layers generalizing seen with
  | nil => simp [validateLayers]
  | cons layer rest inductionHypothesis =>
    -- A later layer is new after this one if it is new before it and has another name.
    have fresh : (∀ later ∈ rest, later.name ∉ layer.name :: seen) ↔
        layer.name ∉ rest.map LayerDefinition.name ∧ ∀ later ∈ rest, later.name ∉ seen := by
      simp only [List.mem_cons, not_or, List.mem_map, not_exists, not_and, forall_and]
    have checked : validateLayers seen (layer :: rest) = .ok () ↔
        layer.name ∉ seen ∧ ¬layer.packages.isEmpty ∧
          (∀ text ∈ layer.packages, PackagePattern.Readable text) ∧
          validateLayers (layer.name :: seen) rest = .ok () := by
      rw [validateLayers, guard_eq_ok_iff]
      dsimp only
      rw [guard_eq_ok_iff, andThen_eq_ok_iff, forM_eq_ok_iff]
      simp only [bind_pure_eq_ok_iff, PackagePattern.exists_parseAt_iff]
    rw [checked, inductionHypothesis, fresh, List.isEmpty_iff, List.map_cons, List.nodup_cons,
      List.forall_mem_cons, List.forall_mem_cons]
    tauto

/-- The check of what a layer may depend on. -/
theorem validateDependencies_eq_ok_iff {names : List String} {entry : String × List String} :
    validateDependencies names entry = .ok () ↔
      entry.1 ∈ names ∧ ∀ target ∈ entry.2, target ∈ names ∧ target ≠ entry.1 := by
  obtain ⟨layer, targets⟩ := entry
  rw [validateDependencies, guard_eq_ok_iff, andThen_eq_ok_iff, forM_eq_ok_iff, unless_eq_ok_iff,
    not_not]
  simp only [unless_eq_ok_iff, not_not, forall_and]
  have otherwise : layer ∉ targets ↔ ∀ target ∈ targets, target ≠ layer := by
    constructor
    · exact fun absent target listed same => absent (same ▸ listed)
    · exact fun others listed => others layer listed rfl
  rw [otherwise]

/-- Nothing is said about a layer that has no entry. -/
theorem isNone_allowed?_iff {definitions : RuleDefinitions} {layer : String} :
    (definitions.allowed? layer).isNone = true ↔
      layer ∉ definitions.dependencies.map Prod.fst := by
  rw [allowed?, Option.isNone_map, Option.isNone_iff_eq_none, List.find?_eq_none]
  simp only [decide_eq_true_iff, List.mem_map, not_exists, not_and]

/-- The check of a denial. -/
theorem validateDenied_eq_ok_iff {entry : DenyDefinition × Nat} :
    validateDenied entry = .ok () ↔ entry.1.targets ≠ [] ∧
      ∀ text ∈ entry.1.origin :: entry.1.targets, PackagePattern.Readable text := by
  obtain ⟨definition, index⟩ := entry
  rw [validateDenied, bind_eq_ok_iff]
  dsimp only
  simp only [guard_eq_ok_iff, forM_eq_ok_iff, bind_pure_eq_ok_iff,
    PackagePattern.exists_parseAt_iff, List.isEmpty_iff, exists_and_right, List.forall_mem_cons]
  exact and_left_comm

/-- Denials are valid if each has targets and its patterns are readable. -/
theorem forM_validateDenied_eq_ok_iff {definitions : List DenyDefinition} :
    definitions.zipIdx.forM validateDenied = .ok () ↔
      ∀ entry ∈ definitions, entry.targets ≠ [] ∧
        ∀ text ∈ entry.origin :: entry.targets, PackagePattern.Readable text :=
  forM_zipIdx_eq_ok_iff fun _ => validateDenied_eq_ok_iff

/-- The pattern of slices is read as any other and has one capture. -/
theorem slicePattern_eq_ok_iff {entry : String × Nat} {pattern : PackagePattern} :
    slicePattern entry = .ok pattern ↔
      PackagePattern.parse entry.1 = .ok pattern ∧ pattern.captureCount = 1 := by
  obtain ⟨text, index⟩ := entry
  rw [slicePattern, bind_eq_ok_iff]
  dsimp only
  simp only [guard_eq_ok_iff, PackagePattern.parseAt_eq_ok_iff, pure, Except.pure,
    Except.ok.injEq, ne_eq, not_not]
  constructor
  · rintro ⟨_, read, single, rfl⟩
    exact ⟨read, single⟩
  · rintro ⟨read, single⟩
    exact ⟨pattern, read, single, rfl⟩

/-- Patterns of slices are valid if each is readable and captures once. -/
theorem forM_slicePattern_eq_ok_iff {texts : List String} :
    (texts.zipIdx.forM fun entry => slicePattern entry >>= fun _ => pure ()) = .ok () ↔
      ∀ text ∈ texts, ∃ pattern,
        PackagePattern.parse text = .ok pattern ∧ pattern.captureCount = 1 := by
  refine forM_zipIdx_eq_ok_iff fun entry => ?_
  simp only [bind_pure_eq_ok_iff, slicePattern_eq_ok_iff]

variable {definitions : RuleDefinitions}

/-- The patterns of definitions are those of layers, of denials and of cycles. -/
theorem forall_mem_patternTexts_iff {holds : String → Prop} :
    (∀ text ∈ definitions.patternTexts, holds text) ↔
      (∀ layer ∈ definitions.layers, ∀ text ∈ layer.packages, holds text) ∧
      (∀ entry ∈ definitions.denied, ∀ text ∈ entry.origin :: entry.targets, holds text) ∧
        ∀ text ∈ definitions.cycles, holds text := by
  simp only [patternTexts, List.forall_mem_append, List.forall_mem_flatMap, and_assoc]

/-- The checks end well exactly for valid definitions. -/
theorem validate_eq_ok_iff : definitions.validate = .ok () ↔ definitions.Valid := by
  have checked : definitions.validate = .ok () ↔
      validateLayers [] definitions.layers = .ok () ∧
      (∀ entry ∈ definitions.dependencies,
        validateDependencies definitions.layerNames entry = .ok ()) ∧
      (∀ layer ∈ definitions.layers, layer.name ∈ definitions.dependencies.map Prod.fst) ∧
      (∀ entry ∈ definitions.denied, entry.targets ≠ [] ∧
        ∀ text ∈ entry.origin :: entry.targets, PackagePattern.Readable text) ∧
      ∀ text ∈ definitions.cycles, ∃ pattern,
        PackagePattern.parse text = .ok pattern ∧ pattern.captureCount = 1 := by
    rw [validate, andThen_eq_ok_iff, andThen_eq_ok_iff, andThen_eq_ok_iff, andThen_eq_ok_iff,
      forM_validateDenied_eq_ok_iff, forM_slicePattern_eq_ok_iff]
    simp only [forM_eq_ok_iff, unless_eq_ok_iff, isNone_allowed?_iff, not_not]
  rw [checked, validateLayers_eq_ok_iff]
  simp only [validateDependencies_eq_ok_iff]
  constructor
  · rintro ⟨⟨distinct, _, layers⟩, dependencies, entries, denied, cycles⟩
    refine ⟨distinct, fun layer listed => (layers layer listed).1, ?_, fun name => ⟨?_, ?_⟩,
      fun entry listed => (dependencies entry listed).2,
      fun entry listed => (denied entry listed).1, ?_⟩
    · refine forall_mem_patternTexts_iff.mpr ⟨fun layer listed => (layers layer listed).2,
        fun entry listed => (denied entry listed).2, fun text listed => ?_⟩
      obtain ⟨pattern, read, _⟩ := cycles text listed
      exact ⟨pattern, read⟩
    · intro isEntry
      obtain ⟨entry, listed, rfl⟩ := List.mem_map.mp isEntry
      exact (dependencies entry listed).1
    · intro isLayer
      obtain ⟨layer, listed, rfl⟩ := List.mem_map.mp isLayer
      exact entries layer listed
    · intro text listed pattern read
      obtain ⟨same, readAgain, single⟩ := cycles text listed
      rw [read, Except.ok.injEq] at readAgain
      exact readAgain ▸ single
  · intro valid
    obtain ⟨layers, denied, cycles⟩ := forall_mem_patternTexts_iff.mp valid.readable
    refine ⟨⟨valid.distinct, by simp, ?_⟩, ?_, ?_, ?_, ?_⟩
    · exact fun layer listed => ⟨valid.inhabited layer listed, layers layer listed⟩
    · intro entry listed
      exact ⟨(valid.entries entry.1).mp (List.mem_map_of_mem listed), valid.targets entry listed⟩
    · exact fun layer listed => (valid.entries layer.name).mpr (List.mem_map_of_mem listed)
    · exact fun entry listed => ⟨valid.denials entry listed, denied entry listed⟩
    · intro text listed
      obtain ⟨pattern, read⟩ := cycles text listed
      exact ⟨pattern, read, valid.captures text listed pattern read⟩

/-- The order of the entries for layers does not matter. -/
theorem Valid.perm {reordered : List (String × List String)}
    (isPerm : reordered.Perm definitions.dependencies) (valid : definitions.Valid) :
    { definitions with dependencies := reordered }.Valid where
  distinct := valid.distinct
  inhabited := valid.inhabited
  readable := valid.readable
  entries := fun name => ((isPerm.map Prod.fst).mem_iff).trans (valid.entries name)
  targets := fun entry listed => valid.targets entry (isPerm.mem_iff.mp listed)
  denials := valid.denials
  captures := valid.captures

/-! ## The rules of valid definitions -/

/-- Valid definitions make a rule of layers. -/
theorem Valid.exists_layerRule (valid : definitions.Valid) :
    ∃ rule, LayerRule.ofDefinitions definitions = .ok rule := by
  have layers := (forall_mem_patternTexts_iff.mp valid.readable).1
  obtain ⟨read, isRead⟩ : ∃ read, definitions.layers.mapM Layer.ofDefinition = .ok read := by
    refine exists_mapM_eq_ok_iff.mpr fun definition listed => ?_
    obtain ⟨patterns, readAll⟩ := exists_mapM_eq_ok_iff.mpr fun text isText =>
      PackagePattern.exists_parseAt_iff.mpr (layers definition listed text isText)
    exact ⟨⟨definition.name, patterns⟩, Layer.ofDefinition_eq_ok_iff.mpr ⟨readAll, rfl⟩⟩
  exact ⟨_, bind_eq_ok_iff.mpr ⟨read, isRead, rfl⟩⟩

/-- Valid definitions make a rule of denials. -/
theorem Valid.exists_denyRule (valid : definitions.Valid) :
    ∃ rule, DenyRule.ofDefinitions definitions.denied = .ok rule := by
  have denied := (forall_mem_patternTexts_iff.mp valid.readable).2.1
  obtain ⟨read, isRead⟩ :
      ∃ read, definitions.denied.zipIdx.mapM Denial.ofDefinition = .ok read := by
    refine exists_mapM_eq_ok_iff.mpr fun ⟨definition, index⟩ listed => ?_
    obtain ⟨⟨origin, readOrigin⟩, targets⟩ := List.forall_mem_cons.mp
      (denied definition (List.fst_mem_of_mem_zipIdx listed))
    obtain ⟨patterns, readAll⟩ := exists_mapM_eq_ok_iff.mpr targets
    exact ⟨⟨origin, patterns, definition.message, definition.severity⟩,
      Denial.ofDefinition_eq_ok_iff.mpr ⟨readOrigin, readAll, rfl, rfl⟩⟩
  exact ⟨_, bind_eq_ok_iff.mpr ⟨read, isRead, rfl⟩⟩

/-- Valid definitions make a rule of cycles. -/
theorem Valid.exists_cycleRule (valid : definitions.Valid) :
    ∃ rule, CycleRule.ofDefinitions definitions.cycles = .ok rule := by
  have cycles := (forall_mem_patternTexts_iff.mp valid.readable).2.2
  obtain ⟨read, isRead⟩ : ∃ read, definitions.cycles.zipIdx.mapM slicePattern = .ok read := by
    refine exists_mapM_eq_ok_iff.mpr fun entry listed => ?_
    have isText := List.fst_mem_of_mem_zipIdx listed
    obtain ⟨pattern, isPattern⟩ := cycles entry.1 isText
    exact ⟨pattern, slicePattern_eq_ok_iff.mpr
      ⟨isPattern, valid.captures entry.1 isText pattern isPattern⟩⟩
  exact ⟨_, bind_eq_ok_iff.mpr ⟨read, isRead, rfl⟩⟩

/-- Once the checks have ended well, every rule can be built, and there is one for each part that
has entries. -/
theorem Valid.rules_eq (valid : definitions.Valid) :
    ∃ layers denials cycles, LayerRule.ofDefinitions definitions = .ok layers ∧
      DenyRule.ofDefinitions definitions.denied = .ok denials ∧
      CycleRule.ofDefinitions definitions.cycles = .ok cycles ∧
      definitions.rules = .ok
        ((if definitions.layers = [] then [] else [layers.toRule]) ++
          (if definitions.denied = [] then [] else [denials.toRule]) ++
          (if definitions.cycles = [] then [] else [cycles.toRule])) := by
  obtain ⟨layers, layersRead⟩ := valid.exists_layerRule
  obtain ⟨denials, denialsRead⟩ := valid.exists_denyRule
  obtain ⟨cycles, cyclesRead⟩ := valid.exists_cycleRule
  refine ⟨layers, denials, cycles, layersRead, denialsRead, cyclesRead, ?_⟩
  rw [rules, validate_eq_ok_iff.mpr valid, layersRead, denialsRead, cyclesRead]
  simp only [List.isEmpty_iff]
  rfl

/-- The checks end well exactly for valid definitions, in whatever order these say what layers may
depend on. The rules fail with the problem that the checks find and otherwise with none: there is
then a rule for the layers, one for the denials and one for the cycles, as far as there are any. -/
theorem rules_of_definitions (definitions : RuleDefinitions) :
    (definitions.validate = .ok () ↔ definitions.Valid) ∧
    (∀ reordered : List (String × List String), reordered.Perm definitions.dependencies →
      ({ definitions with dependencies := reordered }.validate = .ok () ↔
        definitions.validate = .ok ())) ∧
    (∀ problem, definitions.rules = .error problem ↔ definitions.validate = .error problem) ∧
    (definitions.validate = .ok () → ∃ layers denials cycles,
      LayerRule.ofDefinitions definitions = .ok layers ∧
      DenyRule.ofDefinitions definitions.denied = .ok denials ∧
      CycleRule.ofDefinitions definitions.cycles = .ok cycles ∧
      definitions.rules = .ok
        ((if definitions.layers = [] then [] else [layers.toRule]) ++
          (if definitions.denied = [] then [] else [denials.toRule]) ++
          (if definitions.cycles = [] then [] else [cycles.toRule]))) := by
  refine ⟨validate_eq_ok_iff, ?_, ?_, fun checked => (validate_eq_ok_iff.mp checked).rules_eq⟩
  · intro reordered isPerm
    rw [validate_eq_ok_iff, validate_eq_ok_iff]
    exact ⟨Valid.perm isPerm.symm, Valid.perm isPerm⟩
  · intro problem
    cases checked : definitions.validate with
    | error found =>
      have stops : definitions.rules = .error found := by
        rw [rules, checked]
        rfl
      rw [stops, Except.error.injEq, Except.error.injEq]
    | ok _ =>
      obtain ⟨_, _, _, _, _, _, made⟩ := (validate_eq_ok_iff.mp checked).rules_eq
      simp [made]

/-- Two layers, listed in one order and given their dependencies in the other, and slices. -/
def slicedDefinitions : RuleDefinitions :=
  { layers := [⟨"a", ["a"]⟩, ⟨"b", ["b", "c.."]⟩], dependencies := [("b", ["a"]), ("a", [])]
    cycles := ["a.(*).."] }

/-- These definitions are valid in both orders and ask for two rules. -/
theorem rules_of_definitions_sliced :
    slicedDefinitions.validate = .ok () ∧ slicedDefinitions.Valid ∧
      { slicedDefinitions with dependencies := [("a", []), ("b", ["a"])] }.validate = .ok () ∧
      ∃ layers denials cycles, LayerRule.ofDefinitions slicedDefinitions = .ok layers ∧
        DenyRule.ofDefinitions [] = .ok denials ∧
        CycleRule.ofDefinitions ["a.(*).."] = .ok cycles ∧
        slicedDefinitions.rules = .ok [layers.toRule, cycles.toRule] := by
  have checked : slicedDefinitions.validate = .ok () := by rfl
  obtain ⟨valid, anyOrder, _, built⟩ := rules_of_definitions slicedDefinitions
  exact ⟨checked, valid.mp checked, (anyOrder _ (.swap _ _ [])).mpr checked, built checked⟩

end RuleDefinitions

end ClassAtlas
