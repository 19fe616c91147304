import ClassAtlas.Proofs.Completion
import Mathlib.Data.List.Induction

/-!
# Collecting artifacts

An artifact that is collected either brings a record into the pool or leaves a diagnostic, and
which of the two depends on the artifacts before it only through the names of their classes. The
outcomes are stated here as rules about the artifacts alone. A pool that artifacts were collected
into holds, under each name, the class of the first artifact of that name. From this each step has
one of these outcomes, and a whole pool is made of the outcomes of its artifacts.
-/

namespace ClassAtlas

namespace Artifact

/-- The bytes of an artifact can be had and are those of a class file. -/
structure Holds (artifact : Artifact) (bytes : List UInt8) (record : ClassRecord) : Prop where
  content : artifact.content = .ok bytes
  read : ClassFile.read bytes = .ok record

/-- What an artifact that holds a class brings into a pool. -/
def entry (artifact : Artifact) (checksums : Bool) (bytes : List UInt8) (record : ClassRecord) :
    PoolRecord where
  record
  source := .ofBytes artifact.origin bytes record.sourceFile checksums
  pulledIn := false

/-- No artifact holds a class of the name. -/
def NoneNamed (artifacts : List Artifact) (name : String) : Prop :=
  ∀ artifact ∈ artifacts, ∀ bytes record, artifact.Holds bytes record → record.name ≠ name

/-- The first artifact that holds a class of the name, and what it holds. -/
structure IsFirst (artifacts : List Artifact) (name : String) (first : Artifact)
    (bytes : List UInt8) (record : ClassRecord) : Prop where
  split : ∃ before after, artifacts = before ++ first :: after ∧ NoneNamed before name
  holds : first.Holds bytes record
  named : record.name = name

/-- What an artifact comes to that is collected after others: a record of the pool, or a
diagnostic. -/
inductive Outcome (checksums : Bool) (earlier : List Artifact) (artifact : Artifact) :
    PoolRecord ⊕ Diagnostic → Prop
  | unreadable {fault : ReadFault} (content : artifact.content = .error fault) :
      Outcome checksums earlier artifact
        (.inr { kind := .read, uri := artifact.origin.uri, message := fault.message })
  | unparsable {bytes : List UInt8} {fault : ClassFile.Fault}
      (content : artifact.content = .ok bytes) (read : ClassFile.read bytes = .error fault) :
      Outcome checksums earlier artifact
        (.inr { kind := .parse, uri := artifact.origin.uri, message := fault.message })
  | duplicate {bytes firstBytes : List UInt8} {record firstRecord : ClassRecord} {first : Artifact}
      (holds : artifact.Holds bytes record)
      (known : IsFirst earlier record.name first firstBytes firstRecord) :
      Outcome checksums earlier artifact (.inr {
        kind := .duplicateClass, uri := artifact.origin.uri
        message := "class " ++ record.name ++ " already imported from " ++ first.origin.uri })
  | fresh {bytes : List UInt8} {record : ClassRecord} (holds : artifact.Holds bytes record)
      (new : NoneNamed earlier record.name) :
      Outcome checksums earlier artifact (.inl (artifact.entry checksums bytes record))

/-- An artifact holds one class at most. -/
theorem Holds.unique {artifact : Artifact} {bytes otherBytes : List UInt8}
    {record other : ClassRecord} (holds : artifact.Holds bytes record)
    (again : artifact.Holds otherBytes other) : bytes = otherBytes ∧ record = other := by
  obtain ⟨content, read⟩ := holds
  obtain ⟨content', read'⟩ := again
  cases content.symm.trans content'
  exact ⟨rfl, Except.ok.inj (read.symm.trans read')⟩

/-- An artifact is unreadable, unparsable, or holds a class. -/
theorem record_cases (artifact : Artifact) (checksums : Bool) :
    (∃ fault, artifact.content = .error fault ∧ artifact.record checksums =
      .error { kind := .read, uri := artifact.origin.uri, message := fault.message }) ∨
    (∃ bytes fault, artifact.content = .ok bytes ∧ ClassFile.read bytes = .error fault ∧
      artifact.record checksums =
        .error { kind := .parse, uri := artifact.origin.uri, message := fault.message }) ∨
    ∃ bytes record, artifact.Holds bytes record ∧ artifact.record checksums =
      .ok (record, .ofBytes artifact.origin bytes record.sourceFile checksums) := by
  cases content : artifact.content with
  | error fault => exact Or.inl ⟨fault, rfl, by simp only [record, content]⟩
  | ok bytes =>
    cases read : ClassFile.read bytes with
    | error fault =>
      exact Or.inr (Or.inl ⟨bytes, fault, rfl, read, by simp only [record, content, read]⟩)
    | ok found =>
      exact Or.inr (Or.inr ⟨bytes, found, ⟨content, read⟩, by simp only [record, content, read]⟩)

section Names

variable {artifacts more : List Artifact} {artifact first : Artifact} {name : String}
  {bytes : List UInt8} {record : ClassRecord}

/-- No artifact of two lists has a name if none of either list has it. -/
theorem noneNamed_append :
    NoneNamed (artifacts ++ more) name ↔ NoneNamed artifacts name ∧ NoneNamed more name :=
  List.forall_mem_append

/-- A single artifact has the name of the class that it holds, if it holds one. -/
theorem noneNamed_singleton : NoneNamed [artifact] name ↔
    ∀ bytes record, artifact.Holds bytes record → record.name ≠ name :=
  List.forall_mem_singleton

/-- Where there is a first artifact of the name, the name occurs. -/
theorem IsFirst.not_noneNamed (isFirst : IsFirst artifacts name first bytes record) :
    ¬ NoneNamed artifacts name := by
  obtain ⟨⟨before, after, rfl, _⟩, holds, named⟩ := isFirst
  exact fun none => none first (by simp) bytes record holds named

/-- The first artifact of a name stays the first. -/
theorem IsFirst.append (isFirst : IsFirst artifacts name first bytes record)
    (more : List Artifact) : IsFirst (artifacts ++ more) name first bytes record := by
  obtain ⟨⟨before, after, rfl, none⟩, holds, named⟩ := isFirst
  exact ⟨⟨before, after ++ more, by simp, none⟩, holds, named⟩

/-- An artifact with a new name is the first of it. -/
theorem IsFirst.last (new : NoneNamed artifacts record.name) (holds : artifact.Holds bytes record) :
    IsFirst (artifacts ++ [artifact]) record.name artifact bytes record :=
  ⟨⟨artifacts, [], rfl, new⟩, holds, rfl⟩

end Names

end Artifact

open Artifact

namespace ClassPool

/-- The pool after an outcome. -/
def receive (pool : ClassPool) : PoolRecord ⊕ Diagnostic → ClassPool
  | .inl entry => pool.put entry.record.name (.present entry)
  | .inr diagnostic => pool.report diagnostic

/-- The pool holds the class of the first artifact of each name, and nothing else. -/
structure Gathers (checksums : Bool) (artifacts : List Artifact) (pool : ClassPool) : Prop where
  checksums_eq : pool.checksums = checksums
  present {name : String} {slot : Slot} (registered : pool.slots[name]? = some slot) :
    ∃ first bytes record, IsFirst artifacts name first bytes record ∧
      slot = .present (first.entry checksums bytes record)
  absent {name : String} (unregistered : pool.slots[name]? = none) : NoneNamed artifacts name

/-- An artifact that cannot be read is reported. -/
theorem collect_of_error {pool : ClassPool} {artifact : Artifact} {diagnostic : Diagnostic}
    (failed : artifact.record pool.checksums = .error diagnostic) :
    pool.collect artifact = pool.report diagnostic := by
  rw [ClassPool.collect, failed]

/-- Before any artifact nothing was gathered. -/
theorem gathers_empty (checksums : Bool) : Gathers checksums [] (.empty checksums) :=
  ⟨rfl, by simp [ClassPool.empty], fun _ => by simp [NoneNamed]⟩

namespace Gathers

variable {checksums : Bool} {artifacts : List Artifact} {pool : ClassPool}

/-- An artifact without a class of a new name changes nothing but the diagnostics. -/
theorem report (gathers : Gathers checksums artifacts pool) {artifact : Artifact}
    (old : ∀ bytes record, artifact.Holds bytes record → ¬ NoneNamed artifacts record.name)
    (diagnostic : Diagnostic) :
    Gathers checksums (artifacts ++ [artifact]) (pool.report diagnostic) := by
  refine ⟨gathers.checksums_eq, ?_, ?_⟩
  · intro name slot registered
    obtain ⟨first, bytes, record, isFirst, rfl⟩ := gathers.present registered
    exact ⟨first, bytes, record, isFirst.append _, rfl⟩
  · intro name unregistered
    have none := gathers.absent unregistered
    refine noneNamed_append.mpr ⟨none, noneNamed_singleton.mpr ?_⟩
    rintro bytes record holds rfl
    exact old bytes record holds none

/-- An artifact with a class of a new name is registered under that name. -/
theorem put (gathers : Gathers checksums artifacts pool) {artifact : Artifact}
    {bytes : List UInt8} {record : ClassRecord} (holds : artifact.Holds bytes record)
    (new : NoneNamed artifacts record.name) :
    Gathers checksums (artifacts ++ [artifact])
      (pool.put record.name (.present (artifact.entry checksums bytes record))) := by
  refine ⟨gathers.checksums_eq, ?_, ?_⟩
  · intro name slot registered
    rw [ClassPool.put, Std.TreeMap.getElem?_insert] at registered
    split at registered
    · rename_i isNew
      obtain rfl : record.name = name := by simpa using isNew
      cases registered
      exact ⟨artifact, bytes, record, .last new holds, rfl⟩
    · obtain ⟨first, firstBytes, firstRecord, isFirst, rfl⟩ := gathers.present registered
      exact ⟨first, firstBytes, firstRecord, isFirst.append _, rfl⟩
  · intro name unregistered
    rw [ClassPool.put, Std.TreeMap.getElem?_insert] at unregistered
    split at unregistered
    · simp at unregistered
    · rename_i different
      refine noneNamed_append.mpr ⟨gathers.absent unregistered, noneNamed_singleton.mpr ?_⟩
      intro otherBytes other again named
      obtain ⟨_, rfl⟩ := holds.unique again
      exact different (by simp [named])

/-- Collecting an artifact has one of the outcomes, and the pool receives it. -/
theorem collect (gathers : Gathers checksums artifacts pool) (artifact : Artifact) :
    ∃ outcome, artifact.Outcome checksums artifacts outcome ∧
      pool.collect artifact = pool.receive outcome ∧
      Gathers checksums (artifacts ++ [artifact]) (pool.collect artifact) := by
  rcases artifact.record_cases checksums with
    ⟨fault, content, isRead⟩ | ⟨bytes, fault, content, read, isRead⟩ |
      ⟨bytes, record, holds, isRead⟩
  · have collected := collect_of_error (gathers.checksums_eq ▸ isRead)
    refine ⟨_, .unreadable content, collected, ?_⟩
    rw [collected]
    refine gathers.report (fun bytes record holds => ?_) _
    exact absurd (content.symm.trans holds.content) (by simp)
  · have collected := collect_of_error (gathers.checksums_eq ▸ isRead)
    refine ⟨_, .unparsable content read, collected, ?_⟩
    rw [collected]
    refine gathers.report (fun otherBytes record holds => ?_) _
    cases content.symm.trans holds.content
    exact absurd (read.symm.trans holds.read) (by simp)
  · -- What the pool knows of the name tells whether an earlier artifact has it.
    cases registered : pool.slots[record.name]? with
    | none =>
      have new := gathers.absent registered
      have collected : pool.collect artifact =
          pool.put record.name (.present (artifact.entry checksums bytes record)) := by
        rw [ClassPool.collect, gathers.checksums_eq, isRead]
        simp only [add, record?, registered, Option.bind_none]
        rfl
      refine ⟨_, .fresh holds new, collected, ?_⟩
      rw [collected]
      exact gathers.put holds new
    | some slot =>
      obtain ⟨first, firstBytes, firstRecord, isFirst, rfl⟩ := gathers.present registered
      have collected : pool.collect artifact = pool.report {
          kind := .duplicateClass, uri := artifact.origin.uri
          message :=
            "class " ++ record.name ++ " already imported from " ++ first.origin.uri } := by
        rw [ClassPool.collect, gathers.checksums_eq, isRead]
        simp only [add, record?, registered, Option.bind_some, Slot.record?]
        rfl
      refine ⟨_, .duplicate holds isFirst, collected, ?_⟩
      rw [collected]
      refine gathers.report (fun otherBytes other again => ?_) _
      obtain ⟨_, rfl⟩ := holds.unique again
      exact isFirst.not_noneNamed

end Gathers

/-- A new name adds its record to those of the pool. -/
theorem entries_put {pool : ClassPool} {name : String} (fresh : name ∉ pool.slots) (slot : Slot) :
    (pool.put name slot).entries.Perm (pool.entries ++ slot.record?.toList) := by
  have others : (pool.slots.toList.filter fun row => decide ¬ (name == row.1) = true) =
      pool.slots.toList := by
    refine List.filter_eq_self.mpr ?_
    rintro ⟨key, other⟩ listed
    have registered := Std.TreeMap.mem_toList_iff_getElem?_eq_some.mp listed
    have different : name ≠ key := by
      rintro rfl
      exact fresh (Std.TreeMap.mem_iff_isSome_getElem?.mpr (by simp [registered]))
    simpa using different
  have rows := @Std.TreeMap.toList_insert_perm _ _ _ pool.slots _ _ _ name slot
  rw [others] at rows
  refine (rows.filterMap fun row => row.2.record?).trans ?_
  rw [List.filterMap_cons]
  cases slot with
  | present entry => exact List.perm_append_singleton _ _ |>.symm
  | missing => simp [Slot.record?, entries]

/-- The outcomes of collecting artifacts one after the other. -/
structure Outcomes (checksums : Bool) (artifacts : List Artifact)
    (outcomes : List (PoolRecord ⊕ Diagnostic)) : Prop where
  length_eq : outcomes.length = artifacts.length
  outcome {place : Nat} {artifact : Artifact} {result : PoolRecord ⊕ Diagnostic}
    (atPlace : artifacts[place]? = some artifact) (results : outcomes[place]? = some result) :
    artifact.Outcome checksums (artifacts.take place) result

/-- One more artifact has one more outcome. -/
theorem Outcomes.append {checksums : Bool} {artifacts : List Artifact} {artifact : Artifact}
    {outcomes : List (PoolRecord ⊕ Diagnostic)} {result : PoolRecord ⊕ Diagnostic}
    (earlier : Outcomes checksums artifacts outcomes)
    (last : artifact.Outcome checksums artifacts result) :
    Outcomes checksums (artifacts ++ [artifact]) (outcomes ++ [result]) := by
  refine ⟨by simp [earlier.length_eq], ?_⟩
  intro place other outcome atPlace results
  rcases Nat.lt_trichotomy place artifacts.length with before | rfl | after
  · rw [List.getElem?_append_left before] at atPlace
    rw [List.getElem?_append_left (by rw [earlier.length_eq]; exact before)] at results
    rw [List.take_append_of_le_length (Nat.le_of_lt before)]
    exact earlier.outcome atPlace results
  · rw [List.getElem?_concat_length] at atPlace
    rw [← earlier.length_eq, List.getElem?_concat_length] at results
    cases atPlace
    cases results
    rw [List.take_left]
    exact last
  · rw [List.getElem?_eq_none (by simp; omega)] at atPlace
    simp at atPlace

/-- Receiving an outcome adds its diagnostic, -/
theorem diagnostics_receive (pool : ClassPool) (outcome : PoolRecord ⊕ Diagnostic) :
    (pool.receive outcome).diagnostics = pool.diagnostics ++ outcome.getRight?.toList := by
  cases outcome with
  | inl entry => simp [receive, put]
  | inr diagnostic => simp [receive, report]

/-- or its record. -/
theorem Gathers.entries_receive {checksums : Bool} {artifacts : List Artifact} {pool : ClassPool}
    (gathers : Gathers checksums artifacts pool) {artifact : Artifact}
    {outcome : PoolRecord ⊕ Diagnostic} (comes : artifact.Outcome checksums artifacts outcome) :
    (pool.receive outcome).entries.Perm (pool.entries ++ outcome.getLeft?.toList) := by
  have reported (diagnostic : Diagnostic) :
      (pool.receive (.inr diagnostic)).entries.Perm (pool.entries ++ []) := by
    rw [List.append_nil]
    rfl
  cases comes with
  | unreadable => exact reported _
  | unparsable => exact reported _
  | duplicate => exact reported _
  | @fresh bytes record holds new =>
    refine entries_put (fun registered => ?_) (.present (artifact.entry checksums bytes record))
    obtain ⟨slot, found⟩ := Option.isSome_iff_exists.mp
      (Std.TreeMap.mem_iff_isSome_getElem?.mp registered)
    obtain ⟨_, _, _, isFirst, _⟩ := gathers.present found
    exact isFirst.not_noneNamed new

/-- Artifacts collected into an empty pool leave the diagnostics and the records of their
outcomes. -/
theorem exists_outcomes (checksums : Bool) (artifacts : List Artifact) :
    let pool := artifacts.foldl ClassPool.collect (.empty checksums)
    ∃ outcomes, Outcomes checksums artifacts outcomes ∧ Gathers checksums artifacts pool ∧
      pool.diagnostics = outcomes.filterMap Sum.getRight? ∧
      pool.entries.Perm (outcomes.filterMap Sum.getLeft?) := by
  -- Artifacts are added at the end, so that those before are the ones collected already.
  induction artifacts using List.reverseRecOn with
  | nil =>
    refine ⟨[], ⟨rfl, by simp⟩, gathers_empty checksums, rfl, ?_⟩
    simp [entries, ClassPool.empty]
  | append_singleton artifacts artifact inductionHypothesis =>
    obtain ⟨outcomes, earlier, gathers, diagnostics, entries⟩ := inductionHypothesis
    obtain ⟨outcome, comes, received, gathersMore⟩ := gathers.collect artifact
    rw [List.foldl_concat]
    refine ⟨outcomes ++ [outcome], earlier.append comes, gathersMore, ?_, ?_⟩
    · rw [received, diagnostics_receive, diagnostics, List.filterMap_append]
      cases outcome <;> rfl
    · rw [received, List.filterMap_append]
      refine (gathers.entries_receive comes).trans (entries.append ?_)
      cases outcome <;> exact .refl _

/-- Registering missing names neither adds records nor diagnostics. -/
theorem completeWithoutResolver_keeps (pool : ClassPool) :
    pool.completeWithoutResolver.diagnostics = pool.diagnostics ∧
      pool.completeWithoutResolver.entries.Perm pool.entries := by
  rw [completeWithoutResolver]
  refine List.foldlRecOn (motive := fun filled : ClassPool =>
    filled.diagnostics = pool.diagnostics ∧ filled.entries.Perm pool.entries) _ _ ⟨rfl, .refl _⟩ ?_
  rintro filled ⟨diagnostics, entries⟩ name _
  split
  · exact ⟨diagnostics, entries⟩
  · rename_i unregistered
    have fresh : name ∉ filled.slots := mt Std.TreeMap.mem_iff_contains.mp unregistered
    refine ⟨diagnostics, (entries_put fresh .missing).trans ?_⟩
    simpa [Slot.record?] using entries

end ClassPool

/-- The resolver that an import completes its pool with. -/
def ImportOptions.searching (options : ImportOptions) (resolver : Resolver) : Resolver :=
  if options.resolveMissing then resolver else .none

/-- The pool that an import links. -/
def completedPool (options : ImportOptions) (resolver : Resolver) (artifacts : List Artifact) :
    ClassPool :=
  (artifacts.foldl ClassPool.collect (.empty options.checksums)).complete
    (options.searching resolver)

/-- Importing links the collected and completed pool, with or without a resolver. -/
theorem importArtifacts_eq (options : ImportOptions) (resolver : Resolver)
    (artifacts : List Artifact) :
    importArtifacts options resolver artifacts =
      { graph := (completedPool options resolver artifacts).link.1
        diagnostics := (completedPool options resolver artifacts).link.2 } := by
  rw [completedPool, ImportOptions.searching]
  cases resolves : options.resolveMissing with
  | true => simp only [importArtifacts, resolves, if_true]
  | false =>
    simp only [importArtifacts, resolves, Bool.false_eq_true, if_false]
    rw [ClassPool.complete_of_unknown .none fun _ => rfl]

end ClassAtlas
