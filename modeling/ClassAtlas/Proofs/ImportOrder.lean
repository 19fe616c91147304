import ClassAtlas.Proofs.Collecting
import Mathlib.Data.List.Perm.Basic

/-!
# Imports in any order

The artifacts of an import can be given in any order, as long as no two of them hold classes of
one name. Each artifact then comes to what it would come to alone, so that pools collected in two
orders hold the same records under the same names. Which names are searched to complete a pool is
settled by the least closure of what it refers to, and a pool is linked name by name. So the
graphs are equal, and the diagnostics differ in their order only.
-/

namespace ClassAtlas

namespace Artifact

/-- No two of the artifacts hold classes of one name. -/
def DistinctNames (artifacts : List Artifact) : Prop :=
  artifacts.Pairwise fun left right => ∀ bytes record otherBytes other,
    left.Holds bytes record → right.Holds otherBytes other → record.name ≠ other.name

/-- What an artifact comes to when no other is collected before it. -/
def alone (checksums : Bool) (artifact : Artifact) : PoolRecord ⊕ Diagnostic :=
  match artifact.record checksums with
  | .ok (record, source) => .inl { record, source, pulledIn := false }
  | .error diagnostic => .inr diagnostic

variable {artifacts first second : List Artifact}

/-- Distinct names stay distinct in any order. -/
theorem DistinctNames.perm (distinct : DistinctNames first) (reordered : first.Perm second) :
    DistinctNames second := by
  refine (List.Perm.pairwise_iff ?_ reordered).mp distinct
  intro left right different bytes record otherBytes other holds holdsOther
  exact (different otherBytes other bytes record holdsOther holds).symm

/-- Where names are distinct, no artifact before a given one has its name. -/
theorem DistinctNames.noneNamed (distinct : DistinctNames artifacts) {place : Nat}
    {artifact : Artifact} (atPlace : artifacts[place]? = some artifact) {bytes : List UInt8}
    {record : ClassRecord} (holds : artifact.Holds bytes record) :
    NoneNamed (artifacts.take place) record.name := by
  have split : artifacts = artifacts.take place ++ artifact :: artifacts.drop (place + 1) := by
    obtain ⟨inside, rfl⟩ := List.getElem?_eq_some_iff.mp atPlace
    rw [List.getElem_cons_drop, List.take_append_drop]
  rw [DistinctNames, split, List.pairwise_append] at distinct
  intro other listed otherBytes otherRecord holdsOther
  exact distinct.2.2 other listed artifact List.mem_cons_self _ _ _ _ holdsOther holds

/-- An artifact of a new name comes to what it would come to alone. -/
theorem Outcome.eq_alone {checksums : Bool} {earlier : List Artifact} {artifact : Artifact}
    {result : PoolRecord ⊕ Diagnostic} (comes : artifact.Outcome checksums earlier result)
    (new : ∀ bytes record, artifact.Holds bytes record → NoneNamed earlier record.name) :
    result = artifact.alone checksums := by
  cases comes with
  | unreadable content => simp only [alone, record, content]
  | unparsable content read => simp only [alone, record, content, read]
  | duplicate holds known => exact absurd (new _ _ holds) known.not_noneNamed
  | fresh holds _ => simp only [alone, record, holds.content, holds.read, entry]

end Artifact

open Artifact

namespace ClassPool

/-- With distinct names, every artifact comes to what it would come to alone. -/
theorem Outcomes.eq_map {checksums : Bool} {artifacts : List Artifact}
    {outcomes : List (PoolRecord ⊕ Diagnostic)} (come : Outcomes checksums artifacts outcomes)
    (distinct : DistinctNames artifacts) : outcomes = artifacts.map (alone checksums) := by
  refine List.ext_getElem (by simp [come.length_eq]) fun place inside inMap => ?_
  have inArtifacts : place < artifacts.length := come.length_eq ▸ inside
  have atPlace := List.getElem?_eq_getElem inArtifacts
  have comes := come.outcome atPlace (List.getElem?_eq_getElem inside)
  rw [List.getElem_map]
  exact comes.eq_alone fun bytes record holds => distinct.noneNamed atPlace holds

section Lookups

variable {pool other : ClassPool}

/-- Pools of imported classes with the same records have them under the same names. -/
theorem Collected.getElem?_eq (collected : pool.Collected) (otherCollected : other.Collected)
    (same : pool.entries.Perm other.entries) (name : String) :
    pool.slots[name]? = other.slots[name]? := by
  have carries {left right : ClassPool} (leftCollected : left.Collected)
      (rightCollected : right.Collected) (sameRecords : left.entries.Perm right.entries)
      {slot : Slot} (registered : left.slots[name]? = some slot) :
      right.slots[name]? = some slot := by
    obtain ⟨entry, rfl, _, named⟩ := leftCollected.named registered
    have listed := sameRecords.mem_iff.mp (mem_entries_iff.mpr ⟨name, registered⟩)
    obtain ⟨key, present⟩ := mem_entries_iff.mp listed
    obtain ⟨_, ⟨⟩, _, alsoNamed⟩ := rightCollected.named present
    rw [← named, alsoNamed]
    exact present
  refine Option.ext fun slot => ⟨carries collected otherCollected same, ?_⟩
  exact carries otherCollected collected same.symm

variable (same : ∀ name : String, pool.slots[name]? = other.slots[name]?)

include same

/-- Pools that agree name by name have the same names registered. -/
theorem mem_slots_congr {name : String} : name ∈ pool.slots ↔ name ∈ other.slots := by
  rw [Std.TreeMap.mem_iff_isSome_getElem?, Std.TreeMap.mem_iff_isSome_getElem?, same]

/-- What a pool wants depends on what is registered only. -/
theorem Wanted.congr {resolver : Resolver} {name : String} (wanted : Wanted resolver pool name) :
    Wanted resolver other name := by
  induction wanted with
  | referenced present refers leads =>
    rw [same] at present
    exact .referenced present refers leads
  | supertype _ fresh supplied above leads inductionHypothesis =>
    exact .supertype inductionHypothesis (mt (mem_slots_congr same).mpr fresh) supplied above leads

/-- Pools that agree name by name are linked to the same graph, with the same diagnostics after
those that they had. -/
theorem link_congr : pool.link.1 = other.link.1 ∧ ∃ appended,
    pool.link.2 = pool.diagnostics ++ appended ∧ other.link.2 = other.diagnostics ++ appended := by
  have rows : pool.slots.toList = other.slots.toList :=
    (Std.TreeMap.Equiv.of_forall_constGet?_eq same).toList_eq
  have records : pool.typings = other.typings := by
    rw [typings, typings, entries, entries, rows]
  have missing : pool.missingNames = other.missingNames := by
    rw [missingNames, missingNames, rows]
  refine ⟨?_, pool.typings.filterMap Link.diagnostic?, rfl, ?_⟩
  · simp only [link, records, missing]
  · simp only [link, records]

/-- Completing pools that agree name by name searches the same names, so that they still agree
and have got the same diagnostics in some order. -/
theorem complete_congr (sameChecksums : pool.checksums = other.checksums) (resolver : Resolver) :
    (∀ name : String,
      (pool.complete resolver).slots[name]? = (other.complete resolver).slots[name]?) ∧
    ∃ appended otherAppended, (pool.complete resolver).diagnostics = pool.diagnostics ++ appended ∧
      (other.complete resolver).diagnostics = other.diagnostics ++ otherAppended ∧
      appended.Perm otherAppended := by
  obtain ⟨searched, run⟩ := completes_completeFrom resolver pool.referencedFiles pool
  obtain ⟨otherSearched, otherRun⟩ := completes_completeFrom resolver other.referencedFiles other
  -- The runs may search in different orders, but each searches the least closure, and once.
  have sameSearched (name : String) : name ∈ searched ↔ name ∈ otherSearched := by
    rw [run.mem_searched_iff, otherRun.mem_searched_iff, mem_slots_congr same]
    exact and_congr_left fun _ => ⟨Wanted.congr same, Wanted.congr fun name => (same name).symm⟩
  have reordered : searched.Perm otherSearched :=
    (List.perm_ext_iff_of_nodup run.searched_nodup otherRun.searched_nodup).mpr sameSearched
  refine ⟨fun name => ?_, _, _, run.diagnostics_eq, otherRun.diagnostics_eq, ?_⟩
  · by_cases isSearched : name ∈ searched
    · rw [complete, complete, run.getElem?_of_mem isSearched,
        otherRun.getElem?_of_mem ((sameSearched name).mp isSearched), sameChecksums]
    · rw [complete, complete, run.getElem?_of_not_mem isSearched,
        otherRun.getElem?_of_not_mem (mt (sameSearched name).mpr isSearched), same]
  · rw [sameChecksums]
    exact reordered.filterMap _

end Lookups

/-- Artifacts with distinct names can be collected in any order: the pools agree name by name, and
their diagnostics differ in order only. -/
theorem collect_perm (checksums : Bool) {first second : List Artifact}
    (distinct : DistinctNames first) (reordered : first.Perm second) :
    let pool := first.foldl ClassPool.collect (.empty checksums)
    let other := second.foldl ClassPool.collect (.empty checksums)
    (∀ name : String, pool.slots[name]? = other.slots[name]?) ∧
      pool.checksums = other.checksums ∧ pool.diagnostics.Perm other.diagnostics := by
  intro pool other
  obtain ⟨outcomes, come, gathers, diagnostics, entries⟩ := exists_outcomes checksums first
  obtain ⟨others, comeOther, gathersOther, otherDiagnostics, otherEntries⟩ :=
    exists_outcomes checksums second
  have results := come.eq_map distinct
  have otherResults := comeOther.eq_map (distinct.perm reordered)
  have sameOutcomes : outcomes.Perm others := by
    rw [results, otherResults]
    exact reordered.map _
  refine ⟨?_, gathers.checksums_eq.trans gathersOther.checksums_eq.symm, ?_⟩
  · have sameEntries : pool.entries.Perm other.entries :=
      (entries.trans (sameOutcomes.filterMap _)).trans otherEntries.symm
    exact ((Collected.empty checksums).collect first).getElem?_eq
      ((Collected.empty checksums).collect second) sameEntries
  · rw [diagnostics, otherDiagnostics]
    exact sameOutcomes.filterMap _

end ClassPool

/-- An import does not depend on the order of artifacts whose classes have distinct names: the
graph is the same, and so are the diagnostics up to their order. -/
theorem importArtifacts_perm (options : ImportOptions) (resolver : Resolver)
    {first second : List Artifact} (reordered : first.Perm second)
    (distinct : DistinctNames first) :
    (importArtifacts options resolver first).graph =
        (importArtifacts options resolver second).graph ∧
      (importArtifacts options resolver first).diagnostics.Perm
        (importArtifacts options resolver second).diagnostics := by
  obtain ⟨collected, sameChecksums, diagnostics⟩ :=
    ClassPool.collect_perm options.checksums distinct reordered
  obtain ⟨completed, searches, otherSearches, searched, otherSearched, sameSearches⟩ :=
    ClassPool.complete_congr collected sameChecksums (options.searching resolver)
  obtain ⟨sameGraph, appended, linked, otherLinked⟩ := ClassPool.link_congr completed
  rw [importArtifacts_eq, importArtifacts_eq]
  refine ⟨sameGraph, ?_⟩
  simp only [completedPool]
  rw [linked, otherLinked, searched, otherSearched]
  exact (diagnostics.append sameSearches).append_right appended

/-- Two classes, the second above the first, with a file between them that holds none. In either
order the classes are `C`, `P` and the missing `S`, and the file is reported. -/
theorem importArtifacts_perm_reversed :
    let artifacts := [Artifact.ofBytes "C" (ClassFile.derivedClass 67 80), .ofBytes "X" [0],
      .ofBytes "P" (ClassFile.derivedClass 80 83)]
    artifacts.Perm artifacts.reverse ∧ DistinctNames artifacts ∧
      (importArtifacts {} .none artifacts).graph =
        (importArtifacts {} .none artifacts.reverse).graph ∧
      (importArtifacts {} .none artifacts).diagnostics.Perm
        (importArtifacts {} .none artifacts.reverse).diagnostics ∧
      ((importArtifacts {} .none artifacts).graph.classes.map fun node =>
        (node.name, node.isImported)) = #[("C", true), ("P", true), ("S", false)] ∧
      ((importArtifacts {} .none artifacts).diagnostics.map fun diagnostic =>
        (diagnostic.kind, diagnostic.uri)) = [(.parse, "memory:X")] := by
  intro artifacts
  have reordered : artifacts.Perm artifacts.reverse := (List.reverse_perm artifacts).symm
  have named (artifact : Artifact) (listed : artifact ∈ artifacts) {bytes : List UInt8}
      {record : ClassRecord} (holds : artifact.Holds bytes record) :
      "memory:" ++ record.name = artifact.origin.uri := by
    simp only [artifacts, List.mem_cons, List.not_mem_nil, or_false] at listed
    obtain ⟨content, read⟩ := holds
    rcases listed with rfl | rfl | rfl
    · cases content
      cases read
      rfl
    · cases content
      cases read
    · cases content
      cases read
      rfl
  have distinct : DistinctNames artifacts := by
    have places : artifacts.Pairwise fun left right => left.origin.uri ≠ right.origin.uri := by
      decide
    refine places.imp_of_mem ?_
    intro left right inLeft inRight different bytes record otherBytes other holds alsoHolds same
    apply different
    rw [← named left inLeft holds, ← named right inRight alsoHolds, same]
  obtain ⟨sameGraph, sameDiagnostics⟩ := importArtifacts_perm {} .none reordered distinct
  refine ⟨reordered, distinct, sameGraph, sameDiagnostics, ?_⟩
  -- A resolver that knows nothing is the same as none, and without one nothing is searched.
  simp only [importArtifacts, ClassPool.complete_of_unknown .none fun _ => rfl, if_true]
  exact ⟨by decide +kernel, by decide +kernel⟩

end ClassAtlas
