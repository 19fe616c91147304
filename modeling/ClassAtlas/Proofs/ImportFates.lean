import ClassAtlas.Proofs.Collecting
import ClassAtlas.Proofs.LinkedClasses
import Mathlib.Tactic.Choose

/-!
# What becomes of artifacts

Where an import searches for no further classes, every artifact comes to exactly one thing that the
result shows: a class of the graph or a diagnostic. It leaves a diagnostic if it cannot be read, if
it is no class file, if an earlier artifact has a class of the same name, or if its record mentions
something that is no type. Otherwise it is the class of its name. The classes and the diagnostics
that artifacts come to are all imported classes and all diagnostics of the result, so that their
numbers add up.
-/

namespace ClassAtlas

/-- What an artifact comes to in an import after other artifacts: a class or a diagnostic. -/
inductive Artifact.Fate (checksums : Bool) (earlier : List Artifact) (artifact : Artifact) :
    ClassNode ⊕ Diagnostic → Prop
  | refused {diagnostic : Diagnostic}
      (comes : artifact.Outcome checksums earlier (.inr diagnostic)) :
      Fate checksums earlier artifact (.inr diagnostic)
  | malformed {bytes : List UInt8} {record : ClassRecord} {problem : SpellingError}
      (holds : artifact.Holds bytes record) (new : NoneNamed earlier record.name)
      (unread : RecordTypes.ofRecord record = .error problem) :
      Fate checksums earlier artifact (.inr {
        kind := .parse, uri := artifact.origin.uri
        message := "class " ++ record.name ++ ": " ++ problem.message })
  | imported {bytes : List UInt8} {record : ClassRecord} {types : RecordTypes} {node : ClassNode}
      (holds : artifact.Holds bytes record) (new : NoneNamed earlier record.name)
      (read : RecordTypes.ofRecord record = .ok types) (named : node.name = record.name)
      (resolved : node.resolution =
        .resolved (.ofBytes artifact.origin bytes record.sourceFile checksums) false) :
      Fate checksums earlier artifact (.inl node)

open Artifact

/-- The fates of all artifacts of an import, which are its classes and its diagnostics. -/
structure ImportResult.Accounts (result : ImportResult) (checksums : Bool)
    (artifacts : List Artifact) (fates : List (ClassNode ⊕ Diagnostic)) : Prop where
  length_eq : fates.length = artifacts.length
  fate {place : Nat} {artifact : Artifact} {fate : ClassNode ⊕ Diagnostic}
    (atPlace : artifacts[place]? = some artifact) (comes : fates[place]? = some fate) :
    artifact.Fate checksums (artifacts.take place) fate
  classes : (fates.filterMap Sum.getLeft?).Perm result.graph.importedClasses
  diagnostics : (fates.filterMap Sum.getRight?).Perm result.diagnostics

namespace ClassPool

/-- What linking makes of the outcome of an artifact. -/
inductive Settles (graph : ClassGraph) : PoolRecord ⊕ Diagnostic → ClassNode ⊕ Diagnostic → Prop
  | reported (diagnostic : Diagnostic) : Settles graph (.inr diagnostic) (.inr diagnostic)
  | dropped {entry : PoolRecord} {problem : SpellingError}
      (unread : RecordTypes.ofRecord entry.record = .error problem) :
      Settles graph (.inl entry) (.inr {
        kind := .parse, uri := entry.source.uri
        message := "class " ++ entry.record.name ++ ": " ++ problem.message })
  | linked {entry : PoolRecord} {types : RecordTypes} {node : ClassNode}
      (read : RecordTypes.ofRecord entry.record = .ok types) (listed : node ∈ graph.classes)
      (named : node.name = entry.record.name)
      (resolved : node.resolution = .resolved entry.source entry.pulledIn) :
      Settles graph (.inl entry) (.inl node)

/-- Outcome and linking together are the fate of an artifact. -/
theorem Settles.fate {graph : ClassGraph} {checksums : Bool} {earlier : List Artifact}
    {artifact : Artifact} {outcome : PoolRecord ⊕ Diagnostic} {fate : ClassNode ⊕ Diagnostic}
    (settles : Settles graph outcome fate) (comes : artifact.Outcome checksums earlier outcome) :
    artifact.Fate checksums earlier fate := by
  cases settles with
  | reported diagnostic => exact .refused comes
  | dropped unread =>
    cases comes with
    | fresh holds new => exact .malformed holds new unread
  | linked read listed named resolved =>
    cases comes with
    | fresh holds new => exact .imported holds new read named resolved

/-- Linking settles every record of a pool. -/
theorem Filed.exists_settles {pool : ClassPool} (filed : pool.Filed) {entry : PoolRecord}
    (listed : entry ∈ pool.entries) : ∃ fate, Settles pool.link.1 (.inl entry) fate := by
  obtain ⟨name, present⟩ := mem_entries_iff.mp listed
  cases read : RecordTypes.ofRecord entry.record with
  | error problem => exact ⟨_, .dropped read⟩
  | ok types =>
    obtain ⟨id, node, stands, named, resolved⟩ := filed.exists_resolved_of_record present read
    have ownName : node.name = entry.record.name := named.trans (filed.named present).symm
    exact ⟨_, .linked read (Array.mem_of_getElem? stands) ownName resolved⟩

/-- The diagnostic that an outcome comes to: its own, or that of a record that is dropped. -/
theorem Settles.getRight?_eq {graph : ClassGraph} {outcome : PoolRecord ⊕ Diagnostic}
    {fate : ClassNode ⊕ Diagnostic} (settles : Settles graph outcome fate) :
    fate.getRight? = outcome.elim
      (fun entry => Link.diagnostic? (entry, RecordTypes.ofRecord entry.record)) some := by
  cases settles with
  | reported diagnostic => rfl
  | dropped unread =>
    rw [Sum.elim_inl, unread]
    rfl
  | linked read =>
    rw [Sum.elim_inl, read]
    rfl

/-- A class that an outcome comes to is that of its record. -/
theorem Settles.exists_entry {graph : ClassGraph} {outcome : PoolRecord ⊕ Diagnostic}
    {fate : ClassNode ⊕ Diagnostic} (settles : Settles graph outcome fate) {node : ClassNode}
    (isClass : fate.getLeft? = some node) :
    ∃ entry, outcome.getLeft? = some entry ∧ node ∈ graph.classes ∧
      node.name = entry.record.name ∧ node.resolution = .resolved entry.source entry.pulledIn := by
  cases settles with
  | reported diagnostic => simp at isClass
  | dropped unread => simp at isClass
  | @linked entry types _ read listed named resolved =>
    cases isClass
    exact ⟨entry, rfl, listed, named, resolved⟩

/-- A record whose types can be read comes to a class. -/
theorem Settles.exists_class {graph : ClassGraph} {entry : PoolRecord}
    {fate : ClassNode ⊕ Diagnostic} (settles : Settles graph (.inl entry) fate)
    {types : RecordTypes} (read : RecordTypes.ofRecord entry.record = .ok types) :
    ∃ node, fate = .inl node ∧ node ∈ graph.classes ∧ node.name = entry.record.name := by
  cases settles with
  | dropped unread => simp [unread] at read
  | @linked _ _ node _ listed named _ => exact ⟨node, rfl, listed, named⟩

section Settled

variable {pool : ClassPool} {outcomes : List (PoolRecord ⊕ Diagnostic)}
  {settled : PoolRecord ⊕ Diagnostic → ClassNode ⊕ Diagnostic}
  (settles : ∀ outcome ∈ outcomes, Settles pool.link.1 outcome (settled outcome))
  (collected : pool.entries.Perm (outcomes.filterMap Sum.getLeft?))

include settles collected

/-- The diagnostics that outcomes come to are those they left, and those of linking. -/
theorem diagnostics_settled (reported : pool.diagnostics = outcomes.filterMap Sum.getRight?) :
    ((outcomes.map settled).filterMap Sum.getRight?).Perm pool.link.2 := by
  have parted (drop : PoolRecord → Option Diagnostic) :
      (outcomes.filterMap fun outcome => outcome.elim drop some).Perm
        (outcomes.filterMap Sum.getRight? ++ (outcomes.filterMap Sum.getLeft?).filterMap drop) := by
    clear settles collected reported
    induction outcomes with
    | nil => exact .nil
    | cons outcome rest inductionHypothesis =>
      cases outcome with
      | inr diagnostic => exact inductionHypothesis.cons diagnostic
      | inl entry =>
        simp only [List.filterMap_cons, Sum.elim_inl, Sum.getRight?_inl, Sum.getLeft?_inl]
        cases drop entry with
        | none => exact inductionHypothesis
        | some diagnostic => exact (inductionHypothesis.cons diagnostic).trans List.perm_middle.symm
  have each : (outcomes.map settled).filterMap Sum.getRight? = outcomes.filterMap fun outcome =>
      outcome.elim (fun entry => Link.diagnostic? (entry, RecordTypes.ofRecord entry.record))
        some := by
    rw [List.filterMap_map]
    exact List.filterMap_congr fun outcome listed => (settles outcome listed).getRight?_eq
  have linked : pool.link.2 = outcomes.filterMap Sum.getRight? ++ pool.entries.filterMap
      fun entry => Link.diagnostic? (entry, RecordTypes.ofRecord entry.record) := by
    simp only [link, typings, List.filterMap_map, reported]
    rfl
  rw [each, linked]
  exact (parted _).trans ((collected.symm.filterMap _).append_left _)

/-- No class is come to twice. -/
theorem Filed.classes_nodup (filed : pool.Filed) :
    ((outcomes.map settled).filterMap Sum.getLeft?).Nodup := by
  have names := (collected.map fun entry => entry.record.name).nodup_iff.mp filed.names_nodup
  rw [List.Nodup, List.pairwise_map, List.pairwise_filterMap] at names
  rw [List.filterMap_map, List.Nodup, List.pairwise_filterMap]
  refine names.imp_of_mem ?_
  rintro outcome other listed otherListed different node isClass _ isOther rfl
  obtain ⟨entry, comes, _, named, _⟩ := (settles outcome listed).exists_entry isClass
  obtain ⟨otherEntry, otherComes, _, otherNamed, _⟩ :=
    (settles other otherListed).exists_entry isOther
  exact different entry comes otherEntry otherComes (named.symm.trans otherNamed)

/-- The classes that outcomes come to are the imported classes. -/
theorem Filed.classes_settled (filed : pool.Filed)
    (imported : ∀ entry ∈ pool.entries, entry.pulledIn = false) :
    ((outcomes.map settled).filterMap Sum.getLeft?).Perm pool.link.1.importedClasses := by
  have distinct : pool.link.1.importedClasses.Nodup :=
    (Link.graph_names_nodup.of_map).sublist List.filter_sublist
  refine (List.perm_ext_iff_of_nodup (filed.classes_nodup settles collected) distinct).mpr ?_
  intro node
  rw [List.filterMap_map, List.mem_filterMap, ClassGraph.importedClasses, List.mem_filter,
    Array.mem_toList_iff]
  constructor
  · rintro ⟨outcome, listed, isClass⟩
    obtain ⟨entry, comes, inGraph, _, resolved⟩ := (settles outcome listed).exists_entry isClass
    have isEntry : entry ∈ pool.entries :=
      collected.mem_iff.mpr (List.mem_filterMap.mpr ⟨outcome, listed, comes⟩)
    refine ⟨inGraph, ?_⟩
    simp [ClassNode.isImported, ClassNode.isStub, ClassNode.isPulledIn, resolved,
      imported entry isEntry]
  · rintro ⟨inGraph, isImported⟩
    have made : node.resolution ≠ .stub := by
      intro isStub
      simp [ClassNode.isImported, ClassNode.isStub, isStub] at isImported
    obtain ⟨entry, types, present, read, _⟩ := filed.exists_record_of_resolved inGraph made
    have isEntry : entry ∈ pool.entries := mem_entries_iff.mpr ⟨_, present⟩
    obtain ⟨outcome, listed, comes⟩ := List.mem_filterMap.mp (collected.mem_iff.mp isEntry)
    obtain rfl := Sum.getLeft?_eq_some_iff.mp comes
    -- The outcome comes to a class of the same name, which is this one.
    obtain ⟨other, isOther, otherInGraph, named⟩ := (settles _ listed).exists_class read
    have sameName : other.name = node.name := named.trans (filed.named present)
    have same : other = node := Link.eq_of_name_eq otherInGraph inGraph sameName
    exact ⟨_, listed, by rw [Function.comp_apply, isOther, same, Sum.getLeft?_inl]⟩

end Settled

end ClassPool

/-- Whatever a list of fates holds, it is a class or a diagnostic. -/
theorem length_fates (fates : List (ClassNode ⊕ Diagnostic)) :
    (fates.filterMap Sum.getLeft?).length + (fates.filterMap Sum.getRight?).length =
      fates.length := by
  induction fates with
  | nil => rfl
  | cons fate rest inductionHypothesis =>
    cases fate with
    | inl node =>
      simp only [List.filterMap_cons, Sum.getLeft?_inl, Sum.getRight?_inl, List.length_cons]
      omega
    | inr diagnostic =>
      simp only [List.filterMap_cons, Sum.getLeft?_inr, Sum.getRight?_inr, List.length_cons]
      omega

/-- A pool that is completed without finding classes holds what its artifacts brought: their
records are its records and their diagnostics its diagnostics. -/
theorem exists_outcomes_completed {options : ImportOptions} {resolver : Resolver}
    (closed : options.resolveMissing = false ∨ ∀ name, resolver.locate name = .ok none)
    (artifacts : List Artifact) :
    ∃ outcomes, ClassPool.Outcomes options.checksums artifacts outcomes ∧
      (completedPool options resolver artifacts).diagnostics = outcomes.filterMap Sum.getRight? ∧
      (completedPool options resolver artifacts).entries.Perm (outcomes.filterMap Sum.getLeft?) ∧
      ∀ entry ∈ (completedPool options resolver artifacts).entries, entry.pulledIn = false := by
  have unknown : ∀ name, (options.searching resolver).locate name = .ok none := by
    intro name
    rw [ImportOptions.searching]
    split
    · rename_i resolves
      exact closed.resolve_left (by simp [resolves]) name
    · rfl
  obtain ⟨outcomes, come, gathers, diagnostics, entries⟩ :=
    ClassPool.exists_outcomes options.checksums artifacts
  rw [completedPool, ClassPool.complete_of_unknown _ unknown]
  obtain ⟨sameDiagnostics, sameEntries⟩ := ClassPool.completeWithoutResolver_keeps
    (artifacts.foldl ClassPool.collect (.empty options.checksums))
  refine ⟨outcomes, come, sameDiagnostics.trans diagnostics, sameEntries.trans entries, ?_⟩
  intro entry listed
  obtain ⟨name, present⟩ := ClassPool.mem_entries_iff.mp (sameEntries.mem_iff.mp listed)
  obtain ⟨first, bytes, record, _, isEntry⟩ := gathers.present present
  cases isEntry
  rfl

/-- No artifact is lost: where an import finds no further classes, each artifact comes to one
imported class or one diagnostic, and there are no others. -/
theorem importArtifacts_accounts (options : ImportOptions) (resolver : Resolver)
    (closed : options.resolveMissing = false ∨ ∀ name, resolver.locate name = .ok none)
    (artifacts : List Artifact) :
    (∃ fates, (importArtifacts options resolver artifacts).Accounts options.checksums artifacts
      fates) ∧
    artifacts.length = (importArtifacts options resolver artifacts).graph.importedClasses.length +
      (importArtifacts options resolver artifacts).diagnostics.length := by
  obtain ⟨outcomes, come, diagnostics, entries, imported⟩ :=
    exists_outcomes_completed closed artifacts
  have filed : (completedPool options resolver artifacts).Filed :=
    ClassPool.filed_complete ((ClassPool.Collected.empty _).collect _)
      ((ClassPool.dotted_empty _).collect _) _
  have each : ∀ outcome ∈ outcomes, ∃ fate,
      ClassPool.Settles (completedPool options resolver artifacts).link.1 outcome fate := by
    intro outcome listed
    cases outcome with
    | inr diagnostic => exact ⟨_, .reported diagnostic⟩
    | inl entry =>
      refine filed.exists_settles (entries.mem_iff.mpr ?_)
      exact List.mem_filterMap.mpr ⟨_, listed, rfl⟩
  have : Nonempty (ClassNode ⊕ Diagnostic) := ⟨.inr { kind := .read, uri := "", message := "" }⟩
  choose! settled settles using each
  have accounts : (importArtifacts options resolver artifacts).Accounts options.checksums artifacts
      (outcomes.map settled) := by
    rw [importArtifacts_eq]
    refine ⟨by rw [List.length_map, come.length_eq], ?_,
      filed.classes_settled settles entries imported,
      ClassPool.diagnostics_settled settles entries diagnostics⟩
    intro place artifact fate atPlace comes
    rw [List.getElem?_map, Option.map_eq_some_iff] at comes
    obtain ⟨outcome, atOutcome, rfl⟩ := comes
    exact (settles outcome (List.mem_of_getElem? atOutcome)).fate (come.outcome atPlace atOutcome)
  refine ⟨⟨_, accounts⟩, ?_⟩
  rw [← accounts.classes.length_eq, ← accounts.diagnostics.length_eq, length_fates,
    accounts.length_eq]

/-- A class, a file that holds none, and another class of the same name, where a resolver that knows
the superclass is not asked: the first is imported, and the other two are reported. -/
theorem importArtifacts_accounts_mixed :
    let options : ImportOptions := { resolveMissing := false }
    let resolver := Resolver.ofTable [("P", .ok (.ofBytes "P" (ClassFile.derivedClass 80 83)))]
    let artifacts := [Artifact.ofBytes "C" (ClassFile.derivedClass 67 80), .ofBytes "X" [0],
      .ofBytes "D" (ClassFile.derivedClass 67 83)]
    (options.resolveMissing = false ∨ ∀ name, resolver.locate name = .ok none) ∧
      (∃ fates, (importArtifacts options resolver artifacts).Accounts options.checksums artifacts
        fates) ∧
      3 = (importArtifacts options resolver artifacts).graph.importedClasses.length +
        (importArtifacts options resolver artifacts).diagnostics.length ∧
      (importArtifacts options resolver artifacts).graph.importedClasses.map ClassNode.name =
        ["C"] ∧
      ((importArtifacts options resolver artifacts).diagnostics.map fun diagnostic =>
        (diagnostic.kind, diagnostic.uri)) =
        [(.parse, "memory:X"), (.duplicateClass, "memory:D")] := by
  intro options resolver artifacts
  obtain ⟨accounts, total⟩ := importArtifacts_accounts options resolver (Or.inl rfl) artifacts
  exact ⟨Or.inl rfl, accounts, total, by decide +kernel, by decide +kernel⟩

end ClassAtlas
