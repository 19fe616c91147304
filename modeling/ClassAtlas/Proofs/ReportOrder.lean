import ClassAtlas.Command.Run
import ClassAtlas.Proofs.ReportedDependencies
import Mathlib.Data.String.Basic

/-!
# The order of reports

A report lists the violations of all enabled rules, sorted by location and code. The sort is
stable, so a report is made up of two things: the order of the places, which is fixed, and the
order of the violations at each place, which is that before sorting. The rules that definitions
ask for have different codes, and each labels its violations with its own. So the violations at
one place come from one rule, and neither the order of the rules nor the presence of others has
an influence on them. Hence rules may be put in any order, and leaving some out takes their
violations out of the report and does nothing else.
-/

namespace ClassAtlas

/-! ## The order of violations -/

/-- Optional values are compared as the library compares them. -/
theorem compareOptions_eq_compare {α : Type} [Ord α] (left right : Option α) :
    compareOptions left right = compare left right := by
  cases left <;> cases right <;> rfl

namespace Location

/-- Locations are compared by class, then by source file, then by line. -/
theorem order_eq : order = compareLex (compareOn className)
    (compareLex (compareOn sourceFile) (compareOn line)) := by
  funext left right
  simp only [order, compareOptions_eq_compare, compareLex, compareOn]

instance : Std.TransCmp order := by
  rw [order_eq]
  infer_instance

/-- Only a location itself comes neither before nor after it. -/
theorem order_eq_eq_iff {left right : Location} : left.order right = .eq ↔ left = right := by
  cases left
  cases right
  simp [order_eq, compareLex, compareOn, Ordering.then_eq_eq]

end Location

namespace Violation

/-- What violations are sorted by. -/
def place (violation : Violation) : Location × String := (violation.location, violation.code)

/-- A violation does not come after another: its location comes first, or the locations are the
same and its code does not come later. -/
def Precedes (left right : Violation) : Prop :=
  left.location.order right.location = .lt ∨
    left.location = right.location ∧ left.code ≤ right.code

/-- The order that violations are sorted by. -/
theorem le_iff_precedes {left right : Violation} : left.le right = true ↔ left.Precedes right := by
  rw [le, bne_iff_ne, Precedes, ← Location.order_eq_eq_iff]
  cases location : left.location.order right.location with
  | lt => simp
  | eq => simp [compare_le_iff_le]
  | gt => simp

/-- Precedence is transitive. -/
theorem Precedes.trans {first second third : Violation} (lower : first.Precedes second)
    (upper : second.Precedes third) : first.Precedes third := by
  rcases lower with lower | ⟨sameLower, lowerCode⟩
  · rcases upper with upper | ⟨sameUpper, _⟩
    · exact Or.inl (Std.TransCmp.lt_trans lower upper)
    · exact Or.inl (sameUpper ▸ lower)
  · rcases upper with upper | ⟨sameUpper, upperCode⟩
    · exact Or.inl (sameLower ▸ upper)
    · exact Or.inr ⟨sameLower.trans sameUpper, le_trans lowerCode upperCode⟩

/-- Of two violations one precedes the other. -/
theorem precedes_total (left right : Violation) : left.Precedes right ∨ right.Precedes left := by
  cases location : left.location.order right.location with
  | lt => exact Or.inl (Or.inl location)
  | gt => exact Or.inr (Or.inl (Std.OrientedCmp.lt_of_gt location))
  | eq =>
    have same := Location.order_eq_eq_iff.mp location
    rcases le_total left.code right.code with less | less
    · exact Or.inl (Or.inr ⟨same, less⟩)
    · exact Or.inr (Or.inr ⟨same.symm, less⟩)

/-- Violations that come neither before nor after each other are at the same place. -/
theorem Precedes.place_eq {left right : Violation} (lower : left.Precedes right)
    (upper : right.Precedes left) : left.place = right.place := by
  have irreflexive (location : Location) : location.order location ≠ .lt := by
    rw [Location.order_eq_eq_iff.mpr rfl]
    decide
  rcases lower with lower | ⟨same, lowerCode⟩
  · rcases upper with upper | ⟨same, _⟩
    · exact absurd (Std.TransCmp.lt_trans lower upper) (irreflexive _)
    · exact absurd (same ▸ lower) (irreflexive _)
  · rcases upper with upper | ⟨_, upperCode⟩
    · exact absurd (same ▸ upper) (irreflexive _)
    · rw [place, place, same, le_antisymm lowerCode upperCode]

/-- Violations at the same place precede each other. -/
theorem precedes_of_place_eq {left right : Violation} (same : left.place = right.place) :
    left.Precedes right := by
  rw [place, place, Prod.mk.injEq] at same
  exact Or.inr ⟨same.1, le_of_eq same.2⟩

/-! ## Sorting violations -/

/-- The violations at one place, in the order of a list. -/
def atPlace (violations : List Violation) (spot : Location × String) : List Violation :=
  violations.filter fun violation => violation.place = spot

/-- The comparison that sorts violations is transitive. -/
theorem le_trans (first second third : Violation) (lower : first.le second = true)
    (upper : second.le third = true) : first.le third = true := by
  rw [le_iff_precedes] at *
  exact lower.trans upper

/-- The comparison that sorts violations is total. -/
theorem le_total (left right : Violation) : (left.le right || right.le left) = true := by
  rw [Bool.or_eq_true, le_iff_precedes, le_iff_precedes]
  exact precedes_total left right

/-- Sorted violations precede those after them. -/
theorem sorted_mergeSort (violations : List Violation) :
    (violations.mergeSort le).Pairwise Precedes :=
  (List.pairwise_mergeSort le_trans le_total violations).imp le_iff_precedes.mp

/-- Sorting keeps the violations at one place in their order. -/
theorem atPlace_mergeSort (violations : List Violation) (spot : Location × String) :
    atPlace (violations.mergeSort le) spot = atPlace violations spot := by
  have sameLength : (atPlace (violations.mergeSort le) spot).length =
      (atPlace violations spot).length :=
    ((List.mergeSort_perm violations le).filter _).length_eq
  have inOrder : (atPlace violations spot).Pairwise fun left right => left.le right = true := by
    refine List.pairwise_of_forall_mem_list fun left isLeft right isRight => ?_
    have leftAt := (List.mem_filter.mp isLeft).2
    have rightAt := (List.mem_filter.mp isRight).2
    rw [decide_eq_true_eq] at leftAt rightAt
    exact le_iff_precedes.mpr (precedes_of_place_eq (leftAt.trans rightAt.symm))
  have kept := (List.sublist_mergeSort le_trans le_total inOrder List.filter_sublist).filter
    fun violation => violation.place = spot
  simp only [atPlace, List.filter_filter, Bool.and_self] at kept
  exact (kept.eq_of_length sameLength.symm).symm

/-- Lists with the same violations at each place have the same members. -/
theorem mem_of_atPlace_eq {left right : List Violation}
    (same : ∀ spot, atPlace left spot = atPlace right spot) {violation : Violation}
    (listed : violation ∈ left) : violation ∈ right := by
  have found : violation ∈ atPlace left violation.place :=
    List.mem_filter.mpr ⟨listed, decide_eq_true rfl⟩
  rw [same] at found
  exact (List.mem_filter.mp found).1

/-- Lists in order are the same if they have the same violations at each place, in the same
order. -/
theorem eq_of_atPlace_eq {left right : List Violation} (leftSorted : left.Pairwise Precedes)
    (rightSorted : right.Pairwise Precedes)
    (same : ∀ spot, atPlace left spot = atPlace right spot) : left = right := by
  induction left generalizing right with
  | nil =>
    cases right with
    | nil => rfl
    | cons first rest =>
      exact absurd (mem_of_atPlace_eq (fun spot => (same spot).symm) List.mem_cons_self)
        List.not_mem_nil
  | cons first rest inductionHypothesis =>
    cases right with
    | nil => exact absurd (mem_of_atPlace_eq same List.mem_cons_self) List.not_mem_nil
    | cons other others =>
      -- Each of the two heads is in the other list, so neither comes after the other.
      have samePlace : first.place = other.place := by
        have inRight := mem_of_atPlace_eq same (List.mem_cons_self (a := first))
        have inLeft := mem_of_atPlace_eq (fun spot => (same spot).symm)
          (List.mem_cons_self (a := other))
        rcases List.mem_cons.mp inRight with isOther | later
        · rw [isOther]
        rcases List.mem_cons.mp inLeft with isFirst | laterToo
        · rw [isFirst]
        exact (List.rel_of_pairwise_cons leftSorted laterToo).place_eq
          (List.rel_of_pairwise_cons rightSorted later)
      have heads : first = other ∧ atPlace rest first.place = atPlace others first.place := by
        simpa [atPlace, samePlace] using same first.place
      obtain ⟨rfl, tails⟩ := heads
      refine congrArg (first :: ·) (inductionHypothesis leftSorted.of_cons rightSorted.of_cons ?_)
      intro spot
      by_cases here : first.place = spot
      · exact here ▸ tails
      · simpa [atPlace, here] using same spot

/-- Leaving out violations and looking at one place can be done in either order. -/
theorem atPlace_filter (violations : List Violation) (keep : Violation → Bool)
    (spot : Location × String) :
    atPlace (violations.filter keep) spot = (atPlace violations spot).filter keep :=
  List.filter_comm _ _ violations

end Violation

/-! ## Rules with codes of their own -/

/-- Rules are told apart by codes: each labels its violations with its code, and no two have the
same. -/
structure Rule.Labelled (rules : List Rule) : Prop where
  own : ∀ rule ∈ rules, ∀ graph, ∀ violation ∈ rule.check graph, violation.code = rule.code
  nodup : (rules.map Rule.code).Nodup

/-- The violations of the enabled rules, rule by rule, each with the severity that the settings
have for its rule, if they have one. -/
def unsortedViolations (settings : Settings) (graph : ClassGraph) (rules : List Rule) :
    List Violation :=
  (rules.filter fun rule => settings.isEnabled rule.name).flatMap fun rule =>
    (rule.check graph).map fun violation =>
      { violation with severity := (settings.severity? rule.name).getD violation.severity }

section Reports

variable {settings : Settings} {graph : ClassGraph} {rules : List Rule}

/-- What one rule adds to a report. -/
def Rule.contribution (settings : Settings) (graph : ClassGraph) (rule : Rule) : List Violation :=
  if settings.isEnabled rule.name then rule.violations settings graph else []

/-- A rule reports what its check finds, with the severity of the settings if they have one. -/
theorem Rule.violations_eq (rule : Rule) (settings : Settings) (graph : ClassGraph) :
    rule.violations settings graph = (rule.check graph).map fun violation =>
      { violation with severity := (settings.severity? rule.name).getD violation.severity } := by
  rw [Rule.violations]
  cases settings.severity? rule.name with
  | none => simp
  | some severity => rfl

/-- Rules that are not enabled contribute nothing. -/
theorem flatMap_contribution (rules : List Rule) :
    rules.flatMap (Rule.contribution settings graph) = unsortedViolations settings graph rules := by
  simp only [unsortedViolations, ← Rule.violations_eq]
  induction rules with
  | nil => rfl
  | cons rule rest inductionHypothesis =>
    rw [List.flatMap_cons, inductionHypothesis, Rule.contribution]
    cases enabled : settings.isEnabled rule.name <;> simp [enabled]

/-- Checking a graph sorts the violations of the enabled rules. -/
theorem checkGraph_violations (settings : Settings) (rules : List Rule) (graph : ClassGraph) :
    (checkGraph settings rules graph).violations =
      (unsortedViolations settings graph rules).mergeSort Violation.le := by
  simp only [unsortedViolations, ← Rule.violations_eq]
  rfl

namespace Rule.Labelled

/-- Some of the rules are told apart by codes if all are. -/
theorem sublist (labelled : Labelled rules) {selected : List Rule}
    (isSublist : selected.Sublist rules) : Labelled selected :=
  ⟨fun rule listed => labelled.own rule (isSublist.subset listed),
    labelled.nodup.sublist (isSublist.map Rule.code)⟩

/-- Reordered rules are still told apart by codes. -/
theorem perm (labelled : Labelled rules) {reordered : List Rule} (isPerm : reordered.Perm rules) :
    Labelled reordered :=
  ⟨fun rule listed => labelled.own rule (isPerm.mem_iff.mp listed),
    (isPerm.map Rule.code).nodup_iff.mpr labelled.nodup⟩

/-- What a rule adds to a report carries its code. -/
theorem code_of_mem_contribution (labelled : Labelled rules) {rule : Rule} (listed : rule ∈ rules)
    {violation : Violation} (added : violation ∈ rule.contribution settings graph) :
    violation.code = rule.code := by
  rw [contribution] at added
  split at added
  · rw [violations_eq] at added
    obtain ⟨found, isFound, rfl⟩ := List.mem_map.mp added
    have own : found.code = rule.code := labelled.own rule listed graph found isFound
    exact own
  · exact absurd added List.not_mem_nil

/-- At most one rule has a given code. -/
theorem length_filter_le (labelled : Labelled rules) (code : String) :
    (rules.filter fun rule => rule.code = code).length ≤ 1 := by
  have same : (rules.filter fun rule => rule.code = code).map Rule.code =
      List.replicate (rules.filter fun rule => rule.code = code).length code := by
    refine List.map_eq_replicate_iff.mpr fun rule listed => ?_
    simpa using (List.mem_filter.mp listed).2
  have distinct := labelled.nodup.sublist ((List.filter_sublist
    (p := fun rule : Rule => rule.code = code)).map Rule.code)
  rw [same] at distinct
  exact List.nodup_replicate.mp distinct

/-- The violations at a place are those of the rule with the code of that place. -/
theorem atPlace_unsortedViolations (labelled : Labelled rules) (spot : Location × String) :
    Violation.atPlace (unsortedViolations settings graph rules) spot =
      (rules.filter fun rule => rule.code = spot.2).flatMap fun rule =>
        Violation.atPlace (rule.contribution settings graph) spot := by
  have elsewhere : ∀ rule ∈ rules, rule.code ≠ spot.2 →
      Violation.atPlace (rule.contribution settings graph) spot = [] := by
    intro rule listed different
    refine List.filter_eq_nil_iff.mpr fun violation added isAt => different ?_
    rw [decide_eq_true_eq] at isAt
    rw [← labelled.code_of_mem_contribution listed added, ← isAt, Violation.place]
  rw [← flatMap_contribution, Violation.atPlace, List.filter_flatMap]
  clear labelled
  induction rules with
  | nil => rfl
  | cons rule rest inductionHypothesis =>
    obtain ⟨here, later⟩ := List.forall_mem_cons.mp elsewhere
    rw [List.flatMap_cons, inductionHypothesis later]
    by_cases own : rule.code = spot.2
    · simp [own, Violation.atPlace]
    · have none := here own
      rw [Violation.atPlace] at none
      simp [own, none]

/-- At each place, the order of the rules does not matter. -/
theorem atPlace_perm (labelled : Labelled rules) {reordered : List Rule}
    (isPerm : reordered.Perm rules) (spot : Location × String) :
    Violation.atPlace (unsortedViolations settings graph reordered) spot =
      Violation.atPlace (unsortedViolations settings graph rules) spot := by
  rw [labelled.atPlace_unsortedViolations, (labelled.perm isPerm).atPlace_unsortedViolations]
  have sameRules : (reordered.filter fun rule => rule.code = spot.2) =
      rules.filter fun rule => rule.code = spot.2 := by
    have atMostOne := labelled.length_filter_le spot.2
    have isPermToo := isPerm.filter fun rule => rule.code = spot.2
    generalize (rules.filter fun rule => rule.code = spot.2) = kept at atMostOne isPermToo ⊢
    match kept with
    | [] => exact List.perm_nil.mp isPermToo
    | [rule] => exact List.perm_singleton.mp isPermToo
    | first :: second :: rest => simp at atMostOne
  rw [sameRules]

/-- At each place, leaving rules out leaves out what has another code than those selected. -/
theorem atPlace_sublist (labelled : Labelled rules) {selected : List Rule}
    (isSublist : selected.Sublist rules) (spot : Location × String) :
    Violation.atPlace (unsortedViolations settings graph selected) spot =
      Violation.atPlace ((unsortedViolations settings graph rules).filter fun violation =>
        violation.code ∈ selected.map Rule.code) spot := by
  have codeAt {violation : Violation} (isAt : decide (violation.place = spot) = true) :
      violation.code = spot.2 :=
    congrArg Prod.snd (of_decide_eq_true isAt)
  rw [(labelled.sublist isSublist).atPlace_unsortedViolations]
  by_cases chosen : spot.2 ∈ selected.map Rule.code
  · have keepsAll : Violation.atPlace ((unsortedViolations settings graph rules).filter
        fun violation => violation.code ∈ selected.map Rule.code) spot =
          Violation.atPlace (unsortedViolations settings graph rules) spot := by
      rw [Violation.atPlace, Violation.atPlace, List.filter_filter]
      refine List.filter_congr fun violation _ => ?_
      cases isAt : decide (violation.place = spot) with
      | false => rfl
      | true => rw [codeAt isAt, decide_eq_true chosen, Bool.and_self]
    -- The one rule with the code is among those selected.
    have sameRules : (selected.filter fun rule => rule.code = spot.2) =
        rules.filter fun rule => rule.code = spot.2 := by
      refine (isSublist.filter _).eq_of_length_le ((labelled.length_filter_le spot.2).trans ?_)
      obtain ⟨rule, listed, isCode⟩ := List.mem_map.mp chosen
      exact List.length_pos_of_mem (List.mem_filter.mpr ⟨listed, decide_eq_true isCode⟩)
    rw [keepsAll, labelled.atPlace_unsortedViolations, sameRules]
  · have noRule : (selected.filter fun rule => rule.code = spot.2) = [] := by
      refine List.filter_eq_nil_iff.mpr fun rule listed isCode => chosen ?_
      exact List.mem_map.mpr ⟨rule, listed, of_decide_eq_true isCode⟩
    rw [noRule, List.flatMap_nil, eq_comm]
    refine List.filter_eq_nil_iff.mpr fun violation listed isAt => chosen ?_
    rw [← codeAt isAt]
    exact of_decide_eq_true (List.mem_filter.mp listed).2

end Rule.Labelled

/-- Violations are the report of some rules: those of the enabled rules, with the severities of the
settings, in order of their places, and at each place in the order in which they were found. -/
structure IsReport (settings : Settings) (graph : ClassGraph) (rules : List Rule)
    (violations : List Violation) : Prop where
  perm : violations.Perm (unsortedViolations settings graph rules)
  sorted : violations.Pairwise Violation.Precedes
  stable (spot : Location × String) :
    Violation.atPlace violations spot =
      Violation.atPlace (unsortedViolations settings graph rules) spot

/-- Checking a graph makes a report. -/
theorem checkGraph_isReport (settings : Settings) (rules : List Rule) (graph : ClassGraph) :
    IsReport settings graph rules (checkGraph settings rules graph).violations := by
  rw [checkGraph_violations]
  exact ⟨List.mergeSort_perm _ _, Violation.sorted_mergeSort _, Violation.atPlace_mergeSort _⟩

end Reports

/-! ## The rules of definitions -/

/-- The rule of layers labels its violations with its code. -/
theorem LayerRule.code_of_mem_check {rule : LayerRule} {graph : ClassGraph} {found : Violation}
    (listed : found ∈ rule.check graph) : found.code = code := by
  rw [check_eq_findings] at listed
  obtain ⟨node, _, inClass⟩ := List.mem_flatMap.mp listed
  obtain ⟨dependency, _, isFound⟩ := List.mem_filterMap.mp inClass
  obtain ⟨origin, _, isViolation⟩ := Option.bind_eq_some_iff.mp isFound
  obtain ⟨target, _, rfl⟩ := Option.map_eq_some_iff.mp isViolation
  rfl

/-- The rule of denials labels its violations with its code. -/
theorem DenyRule.code_of_mem_check {rule : DenyRule} {graph : ClassGraph} {found : Violation}
    (listed : found ∈ rule.check graph) : found.code = code := by
  obtain ⟨denial, _, ofDenial⟩ := List.mem_flatMap.mp listed
  rw [flatMap_checkClass] at ofDenial
  obtain ⟨node, _, inClass⟩ := List.mem_flatMap.mp ofDenial
  obtain ⟨dependency, _, isFound⟩ := List.mem_filterMap.mp inClass
  obtain ⟨_, isViolation⟩ := Option.ite_none_right_eq_some.mp isFound
  obtain ⟨pattern, _, rfl⟩ := Option.map_eq_some_iff.mp isViolation
  rfl

/-- The rule of cycles labels its violations with its code. -/
theorem CycleRule.code_of_mem_check {rule : CycleRule} {graph : ClassGraph} {found : Violation}
    (listed : found ∈ rule.check graph) : found.code = code := by
  obtain ⟨pattern, _, ofPattern⟩ := List.mem_flatMap.mp listed
  obtain ⟨cycle, _, rfl⟩ := List.mem_map.mp ofPattern
  rfl

/-- Rules that definitions ask for are told apart by their codes. -/
theorem RuleDefinitions.labelled_of_rules {definitions : RuleDefinitions} {rules : List Rule}
    (read : definitions.rules = .ok rules) : Rule.Labelled rules := by
  obtain ⟨_, _, read⟩ := bind_eq_ok_iff.mp read
  obtain ⟨layers, _, read⟩ := bind_eq_ok_iff.mp read
  obtain ⟨denials, _, read⟩ := bind_eq_ok_iff.mp read
  obtain ⟨cycles, _, read⟩ := bind_eq_ok_iff.mp read
  have all : Rule.Labelled [layers.toRule, denials.toRule, cycles.toRule] := by
    constructor
    · simp only [List.forall_mem_cons]
      exact ⟨fun graph found => LayerRule.code_of_mem_check,
        fun graph found => DenyRule.code_of_mem_check,
        fun graph found => CycleRule.code_of_mem_check, by simp⟩
    · have codes : [LayerRule.code, DenyRule.code, CycleRule.code].Nodup := by decide
      exact codes
  have part (absent : Bool) (rule : Rule) : (if absent then [] else [rule]).Sublist [rule] := by
    cases absent <;> simp
  cases read
  exact all.sublist (((part _ layers.toRule).append (part _ denials.toRule)).append (part _ _))

/-- The report of the rules that definitions ask for does not depend on their order, and the report
of a selection of them is what has the codes of the selection. -/
theorem checkGraph_of_rules {definitions : RuleDefinitions} {rules : List Rule}
    (read : definitions.rules = .ok rules) (settings : Settings) (graph : ClassGraph) :
    IsReport settings graph rules (checkGraph settings rules graph).violations ∧
    (∀ reordered : List Rule, reordered.Perm rules →
      checkGraph settings reordered graph = checkGraph settings rules graph) ∧
    (∀ selected : List Rule, selected.Sublist rules →
      (checkGraph settings selected graph).violations =
        (checkGraph settings rules graph).violations.filter fun violation =>
          violation.code ∈ selected.map Rule.code) ∧
    ∀ selection, (Command.selectRules rules selection).Sublist rules := by
  have labelled := RuleDefinitions.labelled_of_rules read
  refine ⟨checkGraph_isReport settings rules graph, ?_, ?_, ?_⟩
  · intro reordered isPerm
    have same : (checkGraph settings reordered graph).violations =
        (checkGraph settings rules graph).violations := by
      refine Violation.eq_of_atPlace_eq (checkGraph_isReport settings reordered graph).sorted
        (checkGraph_isReport settings rules graph).sorted fun spot => ?_
      rw [(checkGraph_isReport settings reordered graph).stable,
        (checkGraph_isReport settings rules graph).stable, labelled.atPlace_perm isPerm]
    exact congrArg (fun violations => { checkGraph settings rules graph with violations }) same
  · intro selected isSublist
    have sorted := (checkGraph_isReport settings rules graph).sorted
    refine Violation.eq_of_atPlace_eq (checkGraph_isReport settings selected graph).sorted
      (sorted.filter _) fun spot => ?_
    rw [(checkGraph_isReport settings selected graph).stable, labelled.atPlace_sublist isSublist,
      Violation.atPlace_filter, Violation.atPlace_filter,
      (checkGraph_isReport settings rules graph).stable]
  · intro selection
    cases selection with
    | none => exact List.Sublist.refl rules
    | some names => exact List.filter_sublist

/-- Two layers that must not depend on each other, and the same said by a denial. -/
def twofoldDefinitions : RuleDefinitions :=
  { layers := [⟨"a", ["a"]⟩, ⟨"b", ["b"]⟩], dependencies := [("a", []), ("b", [])]
    denied := [{ origin := "a", targets := ["b"] }] }

/-- The rules of these definitions. -/
def twofoldRules : List Rule :=
  [LayerRule.toRule ⟨[⟨"a", [⟨"a", [.literal "a"]⟩]⟩, ⟨"b", [⟨"b", [.literal "b"]⟩]⟩],
      [("a", []), ("b", [])]⟩,
    DenyRule.toRule ⟨[⟨⟨"a", [.literal "a"]⟩, [⟨"b", [.literal "b"]⟩], none, none⟩]⟩]

/-- Settings that lower the severity of denied dependencies. -/
def lenientSettings : Settings := { rules := [(DenyRule.name, { severity := some .info })] }

/-- A class with a superinterface in another layer. -/
def twofoldPool : ClassPool := samplePool [sampleClass "a.C" 0x0021 ["b.I"] []]

/-- The layers are reported before the denial, whichever rule is checked first, and the denial can
be selected by its code. -/
theorem checkGraph_of_rules_twofold :
    twofoldDefinitions.rules = .ok twofoldRules ∧
      ((checkGraph lenientSettings twofoldRules twofoldPool.link.1).violations.map fun violation =>
        (violation.code, violation.severity)) = [("LAYER001", .error), ("PKG001", .info)] ∧
      checkGraph lenientSettings twofoldRules.reverse twofoldPool.link.1 =
        checkGraph lenientSettings twofoldRules twofoldPool.link.1 ∧
      (checkGraph lenientSettings (Command.selectRules twofoldRules (some "PKG001"))
          twofoldPool.link.1).violations =
        (checkGraph lenientSettings twofoldRules twofoldPool.link.1).violations.filter
          fun violation =>
            violation.code ∈ (Command.selectRules twofoldRules (some "PKG001")).map Rule.code := by
  have read : twofoldDefinitions.rules = .ok twofoldRules := rfl
  have ⟨_, anyOrder, selects, selected⟩ :=
    checkGraph_of_rules read lenientSettings twofoldPool.link.1
  refine ⟨read, ?_, anyOrder _ (List.reverse_perm _), selects _ (selected _)⟩
  -- The violations come in order already, so that sorting leaves them as they are.
  rw [checkGraph_violations, List.mergeSort_of_pairwise (by decide +kernel)]
  decide +kernel

end ClassAtlas
