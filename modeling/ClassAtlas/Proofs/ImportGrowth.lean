import ClassAtlas.Proofs.ClassProfiles
import ClassAtlas.Proofs.Collecting

/-!
# Imports that grow

One more artifact, put anywhere among the others, may change every number in the graph. A class that
was missing may now be there, and others may be missing that nobody asked for before. If no other
artifact holds a class of its name, nothing that was known gets lost nevertheless.

Two imports are followed side by side here, one without the artifact and one with it. While
artifacts are collected, the pools differ in the one record. When what they refer to is registered,
the smaller pool may have the name of the new class as missing, and this is the only name of which
it knows what the larger does not; it needs the class just as well. All else follows from what
linking makes of a pool, name by name and record by record.
-/

namespace ClassAtlas

open Artifact

namespace ClassPool

/-- Registering a name leaves other names as they were. -/
theorem getElem?_put_of_ne {pool : ClassPool} {name other : String} (different : name ≠ other)
    (slot : Slot) : (pool.put name slot).slots[other]? = pool.slots[other]? := by
  rw [put, Std.TreeMap.getElem?_insert, if_neg (by simpa using different)]

/-- Two pools differ in one record, which only the larger has. -/
structure Grown (name : String) (entry : PoolRecord) (small large : ClassPool) : Prop where
  checksums : large.checksums = small.checksums
  diagnostics : large.diagnostics = small.diagnostics
  absent : small.slots[name]? = none
  present : large.slots[name]? = some (.present entry)
  others : ∀ other ≠ name, large.slots[other]? = small.slots[other]?

/-- Collecting an artifact with a class of a new name makes the difference, -/
theorem grown_collect {pool : ClassPool} {artifact : Artifact} {bytes : List UInt8}
    {record : ClassRecord} (holds : artifact.Holds bytes record)
    (fresh : pool.slots[record.name]? = none) :
    Grown record.name (artifact.entry pool.checksums bytes record) pool
      (pool.collect artifact) := by
  have collected : pool.collect artifact =
      pool.put record.name (.present (artifact.entry pool.checksums bytes record)) := by
    rw [ClassPool.collect, Artifact.record, holds.content]
    simp only [holds.read, add, record?, fresh, Option.bind_none]
    rfl
  rw [collected]
  exact ⟨rfl, rfl, fresh, by simp [put], fun other different => getElem?_put_of_ne different.symm _⟩

namespace Grown

variable {name : String} {entry : PoolRecord} {small large : ClassPool}

/-- and collecting any other artifact keeps it: what the pools know of the name of its class is the
same. -/
theorem collect (grown : Grown name entry small large) {artifact : Artifact}
    (other : ∀ bytes record, artifact.Holds bytes record → record.name ≠ name) :
    Grown name entry (small.collect artifact) (large.collect artifact) := by
  have reported (diagnostic : Diagnostic) :
      Grown name entry (small.report diagnostic) (large.report diagnostic) :=
    ⟨grown.checksums, congrArg (· ++ [diagnostic]) grown.diagnostics, grown.absent, grown.present,
      grown.others⟩
  have failed {diagnostic : Diagnostic}
      (isRead : artifact.record small.checksums = .error diagnostic) :
      Grown name entry (small.collect artifact) (large.collect artifact) := by
    rw [collect_of_error isRead, collect_of_error (grown.checksums ▸ isRead)]
    exact reported diagnostic
  rcases artifact.record_cases small.checksums with
    ⟨_, _, isRead⟩ | ⟨_, _, _, _, isRead⟩ | ⟨bytes, record, holds, isRead⟩
  · exact failed isRead
  · exact failed isRead
  · have different := other bytes record holds
    have known : large.record? record.name = small.record? record.name := by
      rw [record?, record?, grown.others record.name different]
    rw [ClassPool.collect, ClassPool.collect, grown.checksums, isRead]
    simp only [add, known]
    cases small.record? record.name with
    | some existing => exact reported _
    | none =>
      refine ⟨grown.checksums, grown.diagnostics, ?_, ?_, fun wanted isOther => ?_⟩
      · rw [getElem?_put_of_ne different, grown.absent]
      · rw [getElem?_put_of_ne different, grown.present]
      · rw [put, put, Std.TreeMap.getElem?_insert, Std.TreeMap.getElem?_insert,
          grown.others wanted isOther]

/-- Artifacts of other names make both pools grow by the same. -/
theorem collect_all (grown : Grown name entry small large) {artifacts : List Artifact}
    (others : NoneNamed artifacts name) :
    Grown name entry (artifacts.foldl ClassPool.collect small)
      (artifacts.foldl ClassPool.collect large) := by
  induction artifacts generalizing small large with
  | nil => exact grown
  | cons artifact rest inductionHypothesis =>
    obtain ⟨notHere, notLater⟩ := List.forall_mem_cons.mp others
    exact inductionHypothesis (grown.collect notHere) notLater

end Grown

/-- So pools that artifacts were collected into differ in the record of the one more artifact. -/
theorem grown_insert (checksums : Bool) {before after : List Artifact} {added : Artifact}
    {bytes : List UInt8} {record : ClassRecord} (holds : added.Holds bytes record)
    (new : NoneNamed (before ++ after) record.name) :
    Grown record.name (added.entry checksums bytes record)
      ((before ++ after).foldl ClassPool.collect (.empty checksums))
      ((before ++ added :: after).foldl ClassPool.collect (.empty checksums)) := by
  obtain ⟨notBefore, notAfter⟩ := noneNamed_append.mp new
  obtain ⟨_, _, gathers, _⟩ := exists_outcomes checksums before
  rw [List.foldl_append, List.foldl_append, List.foldl_cons]
  generalize before.foldl ClassPool.collect (.empty checksums) = pool at gathers ⊢
  have fresh : pool.slots[record.name]? = none := by
    cases registered : pool.slots[record.name]? with
    | none => rfl
    | some slot =>
      obtain ⟨_, _, _, isFirst, _⟩ := gathers.present registered
      exact absurd notBefore isFirst.not_noneNamed
  rw [← gathers.checksums_eq]
  exact (grown_collect holds fresh).collect_all notAfter

section Completing

variable {pool : ClassPool} {name : String}

/-- Without a resolver no records are added, -/
theorem present_complete_none_iff {entry : PoolRecord} :
    (pool.complete .none).slots[name]? = some (.present entry) ↔
      pool.slots[name]? = some (.present entry) := by
  rw [getElem?_complete_of_unknown fun _ => rfl]
  cases pool.slots[name]? <;> simp

/-- and all that is referred to and not there is missing. -/
theorem missing_complete_none_iff (collected : pool.Collected) :
    (pool.complete .none).slots[name]? = some .missing ↔
      pool.slots[name]? = none ∧ name ∈ pool.referencedFiles := by
  rw [getElem?_complete_of_unknown fun _ => rfl]
  cases registered : pool.slots[name]? with
  | none => simp
  | some slot =>
    obtain ⟨_, rfl, _⟩ := collected.named registered
    simp

end Completing

/-- A completed pool has one record more than another, and misses what the other misses, unless it
is that. -/
structure Exceeds (name : String) (entry : PoolRecord) (small large : ClassPool) : Prop where
  diagnostics : large.diagnostics = small.diagnostics
  absent : ∀ other, small.slots[name]? ≠ some (.present other)
  present_iff (other : String) (found : PoolRecord) :
    large.slots[other]? = some (.present found) ↔
      (other = name ∧ found = entry) ∨ small.slots[other]? = some (.present found)
  missing {other : String} (absent : small.slots[other]? = some .missing) :
    other = name ∨ large.slots[other]? = some .missing

/-- Pools that differ in one record are completed to such pools. -/
theorem Grown.exceeds {name : String} {entry : PoolRecord} {small large : ClassPool}
    (grown : Grown name entry small large) (collectedSmall : small.Collected)
    (collectedLarge : large.Collected) :
    Exceeds name entry (small.complete .none) (large.complete .none) := by
  have keeps {other : String} {found : PoolRecord}
      (present : small.slots[other]? = some (.present found)) :
      large.slots[other]? = some (.present found) := by
    rw [grown.others other ?_, present]
    rintro rfl
    simp [grown.absent] at present
  have silent (pool : ClassPool) : (pool.complete .none).diagnostics = pool.diagnostics :=
    diagnostics_complete_of_unknown (fun _ => rfl) pool
  refine ⟨by rw [silent, silent, grown.diagnostics], ?_, ?_, ?_⟩
  · intro other present
    simp [present_complete_none_iff, grown.absent] at present
  · intro other found
    rw [present_complete_none_iff, present_complete_none_iff]
    by_cases isName : other = name
    · subst isName
      simp [grown.present, grown.absent, eq_comm]
    · simp [grown.others other isName, isName]
  · intro other absent
    rw [missing_complete_none_iff collectedSmall] at absent
    rw [missing_complete_none_iff collectedLarge, or_iff_not_imp_left]
    intro isOther
    refine ⟨by rw [grown.others other isOther, absent.1], ?_⟩
    obtain ⟨key, found, type, present, refers, file⟩ := mem_referencedFiles_iff.mp absent.2
    exact mem_referencedFiles_iff.mpr ⟨key, found, type, keeps present, refers, file⟩

end ClassPool

/-- The diagnostic of the record in a slot, if its types cannot be read. -/
def Slot.dropped? (slot : Slot) : Option Diagnostic :=
  slot.record?.bind fun entry => Link.diagnostic? (entry, RecordTypes.ofRecord entry.record)

namespace ClassPool

/-- Diagnostics of linking come in the order of the names. -/
theorem diagnostics_eq_filterMap (pool : ClassPool) :
    pool.typings.filterMap Link.diagnostic? =
      (pool.slots.filterMap fun _ slot => slot.dropped?).toList.map Prod.snd := by
  rw [Std.TreeMap.toList_filterMap, List.map_filterMap, typings, entries, List.filterMap_map,
    List.filterMap_filterMap]
  refine List.filterMap_congr fun row _ => ?_
  rw [Option.map_map, Slot.dropped?]
  exact Option.map_id'.symm

/-- A diagnostic is left for a name exactly where its record cannot be linked. -/
theorem bind_dropped?_eq_some_iff {pool : ClassPool} {name : String} {diagnostic : Diagnostic} :
    pool.slots[name]?.bind Slot.dropped? = some diagnostic ↔
      ∃ entry, pool.slots[name]? = some (.present entry) ∧
        Link.diagnostic? (entry, RecordTypes.ofRecord entry.record) = some diagnostic := by
  rw [Option.bind_eq_some_iff]
  constructor
  · rintro ⟨slot, registered, drops⟩
    obtain ⟨entry, isRecord, reported⟩ := Option.bind_eq_some_iff.mp drops
    cases slot with
    | present =>
      cases isRecord
      exact ⟨entry, registered, reported⟩
    | missing => cases isRecord
  · rintro ⟨entry, present, reported⟩
    exact ⟨.present entry, present, reported⟩

namespace Exceeds

variable {name : String} {entry : PoolRecord} {types : RecordTypes} {small large : ClassPool}
  (exceeds : Exceeds name entry small large) (read : RecordTypes.ofRecord entry.record = .ok types)

include exceeds read

/-- What the smaller pool needs, the larger needs as well. A class that is missing in the one may be
declared in the other. -/
theorem needs {type : TypeName} (needed : small.Needs type) : large.Needs type := by
  induction needed with
  | declared present typed => exact .declared ((exceeds.present_iff _ _).mpr (Or.inr present)) typed
  | missing absent noKeyword =>
    rcases exceeds.missing absent with rfl | stillAbsent
    · exact .declared ((exceeds.present_iff _ _).mpr (Or.inl ⟨rfl, rfl⟩)) read
    · exact .missing stillAbsent noKeyword
  | mentioned present typed mentions reference =>
    exact .mentioned ((exceeds.present_iff _ _).mpr (Or.inr present)) typed mentions reference
  | component _ reference inductionHypothesis => exact .component inductionHypothesis reference
  | root _ inductionHypothesis => exact .root inductionHypothesis

/-- The readable records are one more. -/
theorem mem_typedRecords_iff {typed : TypedRecord} :
    typed ∈ large.typedRecords ↔ typed = ⟨entry, types⟩ ∨ typed ∈ small.typedRecords := by
  obtain ⟨found, foundTypes⟩ := typed
  simp only [ClassPool.mem_typedRecords_iff, exceeds.present_iff, TypedRecord.mk.injEq]
  constructor
  · rintro ⟨⟨other, ⟨rfl, rfl⟩ | present⟩, foundRead⟩
    · exact Or.inl ⟨rfl, Except.ok.inj (foundRead.symm.trans read)⟩
    · exact Or.inr ⟨⟨other, present⟩, foundRead⟩
  · rintro (⟨rfl, rfl⟩ | ⟨⟨other, present⟩, foundRead⟩)
    · exact ⟨⟨name, Or.inl ⟨rfl, rfl⟩⟩, read⟩
    · exact ⟨⟨other, Or.inr present⟩, foundRead⟩

/-- The record that is more leaves no diagnostic. -/
theorem diagnostics_eq : large.link.2 = small.link.2 := by
  have dropped_iff (other : String) (diagnostic : Diagnostic) :
      large.slots[other]?.bind Slot.dropped? = some diagnostic ↔
        small.slots[other]?.bind Slot.dropped? = some diagnostic := by
    simp only [bind_dropped?_eq_some_iff, exceeds.present_iff]
    constructor
    · rintro ⟨found, ⟨_, rfl⟩ | present, reported⟩
      · simp [read, Link.diagnostic?] at reported
      · exact ⟨found, present, reported⟩
    · rintro ⟨found, present, reported⟩
      exact ⟨found, Or.inr present, reported⟩
  have same : (large.slots.filterMap fun _ slot => slot.dropped?).Equiv
      (small.slots.filterMap fun _ slot => slot.dropped?) := by
    refine Std.TreeMap.Equiv.of_forall_constGet?_eq fun other => ?_
    rw [Std.TreeMap.getElem?_filterMap', Std.TreeMap.getElem?_filterMap']
    exact Option.ext (dropped_iff other)
  change large.diagnostics ++ _ = small.diagnostics ++ _
  rw [diagnostics_eq_filterMap, diagnostics_eq_filterMap, same.toList_eq, exceeds.diagnostics]

end Exceeds

end ClassPool

/-- An import says all that another says, and of one class more: it has all names of classes, the
same profiles of resolved classes besides the one, and the same diagnostics. -/
structure ImportResult.Extends (larger smaller : ImportResult) (added : ClassProfile) : Prop where
  names : ∀ node ∈ smaller.graph.classes, ∃ other ∈ larger.graph.classes, other.name = node.name
  new : ∀ node ∈ smaller.graph.resolvedClasses, node.name ≠ added.name
  profiles : larger.graph.profiles.Perm (added :: smaller.graph.profiles)
  diagnostics : larger.diagnostics = smaller.diagnostics

/-- Linked pools of which one exceeds the other are such results. -/
theorem ClassPool.Exceeds.extends {name : String} {entry : PoolRecord} {types : RecordTypes}
    {small large : ClassPool} (exceeds : Exceeds name entry small large)
    (read : RecordTypes.ofRecord entry.record = .ok types) (filedSmall : small.Filed)
    (filedLarge : large.Filed) :
    ImportResult.Extends { graph := large.link.1, diagnostics := large.link.2 }
      { graph := small.link.1, diagnostics := small.link.2 }
      (TypedRecord.profile ⟨entry, types⟩) := by
  have named : entry.record.name = name :=
    filedLarge.named ((exceeds.present_iff name entry).mpr (Or.inl ⟨rfl, rfl⟩))
  have new : ∀ node ∈ small.link.1.resolvedClasses, node.name ≠ entry.record.name := by
    intro node isResolved sameName
    rw [ClassGraph.resolvedClasses, List.mem_filter, Array.mem_toList_iff] at isResolved
    obtain ⟨other, _, present, _⟩ := filedSmall.exists_record_of_resolved isResolved.1
      (by simpa [ClassNode.isStub] using isResolved.2)
    rw [sameName, named] at present
    exact exceeds.absent other present
  refine ⟨?_, new, ?_, exceeds.diagnostics_eq read⟩
  · intro node listed
    obtain ⟨type, needed, sameName⟩ := filedSmall.exists_name_iff.mp ⟨node, listed, rfl⟩
    exact filedLarge.exists_name_iff.mpr ⟨type, exceeds.needs read needed, sameName⟩
  · refine (List.perm_ext_iff_of_nodup large.profiles_nodup.of_map ?_).mpr fun profile => ?_
    · refine List.nodup_cons.mpr ⟨?_, small.profiles_nodup.of_map⟩
      intro listed
      obtain ⟨node, resolved, same⟩ := List.mem_map.mp listed
      exact new node resolved (congrArg ClassProfile.name same)
    · rw [List.mem_cons, filedLarge.mem_profiles_iff, filedSmall.mem_profiles_iff]
      simp only [exceeds.mem_typedRecords_iff read, or_and_right, exists_or, exists_eq_left,
        eq_comm]

/-- One more artifact only adds to an import without a resolver, wherever it stands among the
others: if no other holds a class of its name, and the types of its class can be read, the import
tells what it told before, and the class of the artifact besides. -/
theorem importArtifacts_insert {options : ImportOptions} (closed : options.resolveMissing = false)
    (resolver : Resolver) {before after : List Artifact} {added : Artifact} {bytes : List UInt8}
    {record : ClassRecord} {types : RecordTypes} (holds : added.Holds bytes record)
    (new : NoneNamed (before ++ after) record.name)
    (read : RecordTypes.ofRecord record = .ok types) :
    (importArtifacts options resolver (before ++ added :: after)).Extends
      (importArtifacts options resolver (before ++ after))
      (TypedRecord.profile ⟨added.entry options.checksums bytes record, types⟩) := by
  have collected (artifacts : List Artifact) :=
    (ClassPool.Collected.empty options.checksums).collect artifacts
  have dotted (artifacts : List Artifact) :=
    (ClassPool.dotted_empty options.checksums).collect artifacts
  have grown := ClassPool.grown_insert options.checksums holds new
  have exceeds := grown.exceeds (collected _) (collected _)
  have linked := exceeds.extends read (ClassPool.filed_complete (collected _) (dotted _) .none)
    (ClassPool.filed_complete (collected _) (dotted _) .none)
  rw [importArtifacts_eq, importArtifacts_eq, completedPool, completedPool]
  simpa only [ImportOptions.searching, closed, Bool.false_eq_true, if_false] using linked

/-- The superclass of a class that was imported alone, put between this class and its duplicate. It
was a stub before and is imported afterwards, and its own superclass becomes the new stub. -/
theorem importArtifacts_insert_superclass :
    let options : ImportOptions := { resolveMissing := false }
    let before := [Artifact.ofBytes "C" (ClassFile.derivedClass 67 80)]
    let after := [Artifact.ofBytes "D" (ClassFile.derivedClass 67 80), .ofBytes "X" [0]]
    let added := Artifact.ofBytes "P" (ClassFile.derivedClass 80 83)
    ∃ record types, options.resolveMissing = false ∧
      added.Holds (ClassFile.derivedClass 80 83) record ∧ record.name = "P" ∧
      NoneNamed (before ++ after) "P" ∧ RecordTypes.ofRecord record = .ok types ∧
      (importArtifacts options .none (before ++ added :: after)).Extends
        (importArtifacts options .none (before ++ after))
        (TypedRecord.profile ⟨added.entry true (ClassFile.derivedClass 80 83) record, types⟩) ∧
      ((importArtifacts options .none (before ++ after)).graph.classes.map fun node =>
        (node.name, node.isStub)) = #[("C", false), ("P", true)] ∧
      ((importArtifacts options .none (before ++ added :: after)).graph.classes.map fun node =>
        (node.name, node.isStub)) = #[("C", false), ("P", false), ("S", true)] := by
  intro options before after added
  have new : NoneNamed (before ++ after) "P" := by
    rintro artifact listed bytes record ⟨content, read⟩
    simp only [before, after, List.cons_append, List.nil_append, List.mem_cons, List.not_mem_nil,
      or_false] at listed
    rcases listed with rfl | rfl | rfl
    · cases content
      cases read
      decide
    · cases content
      cases read
      decide
    · cases content
      cases read
  have holds : ∃ record, added.Holds (ClassFile.derivedClass 80 83) record ∧ record.name = "P" ∧
      ∃ types, RecordTypes.ofRecord record = .ok types :=
    ⟨_, ⟨rfl, rfl⟩, rfl, _, rfl⟩
  obtain ⟨record, holds, named, types, read⟩ := holds
  exact ⟨record, types, rfl, holds, named, new, read,
    importArtifacts_insert rfl .none holds (named ▸ new) read, by decide +kernel,
    by decide +kernel⟩

end ClassAtlas
