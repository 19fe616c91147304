import ClassAtlas.ClassFile.Reader
import ClassAtlas.Diagnostic
import ClassAtlas.Resolver
import ClassAtlas.Types.Spelling
import Std.Data.TreeMap

/-!
# The class pool

A pool collects the class records of one import under their names, in order of the
names. The first record of a name stays; a later one is dropped with a diagnostic.
Completing a pool registers every class that its records mention as supertype or as
owner of an access: as a record pulled in through a resolver, or as missing. Of records
pulled in, only the supertypes are followed further.
-/

namespace ClassAtlas

/-- A class record and where it came from. -/
structure PoolRecord where
  record : ClassRecord
  source : Source
  pulledIn : Bool

/-- What is known of a name. -/
inductive Slot
  | present (entry : PoolRecord)
  | missing

/-- How a name entered the pool. -/
inductive PoolState
  | imported
  | pulledIn
  | missing
  deriving DecidableEq, Repr

/-- The state of a slot. -/
def Slot.state : Slot → PoolState
  | present entry => if entry.pulledIn then .pulledIn else .imported
  | missing => .missing

/-- The record of a slot. -/
def Slot.record? : Slot → Option PoolRecord
  | present entry => some entry
  | missing => none

/-- The name of the class file behind a type name: arrays lead to their innermost
element, primitive types and malformed names to nothing. -/
def classFileName? (name : String) : Option String :=
  match (TypeName.ofClassName name).toOption.map TypeName.base with
  | some (.object object) => some object
  | _ => none

/-- The class files behind the supertypes of a record. -/
def ClassRecord.supertypeFiles (record : ClassRecord) : List String :=
  record.supertypes.filterMap classFileName?

/-- The class files behind the supertypes and the access owners of a record. -/
def ClassRecord.referencedFiles (record : ClassRecord) : List String :=
  record.supertypeFiles ++ record.accessOwners.filterMap classFileName?

/-- Class records by name, with the diagnostics that collecting them left. -/
structure ClassPool where
  slots : Std.TreeMap String Slot compare := ∅
  diagnostics : List Diagnostic := []
  checksums : Bool := true

namespace ClassPool

/-- The pool before anything was collected. Whether checksums are wanted applies to the
classes pulled in later. -/
def empty (checksums : Bool) : ClassPool := { checksums }

/-- Add a diagnostic. -/
def report (pool : ClassPool) (diagnostic : Diagnostic) : ClassPool :=
  { pool with diagnostics := pool.diagnostics ++ [diagnostic] }

/-- Register what is known of a name. -/
def put (pool : ClassPool) (name : String) (slot : Slot) : ClassPool :=
  { pool with slots := pool.slots.insert name slot }

/-- The number of registered names. -/
def size (pool : ClassPool) : Nat := pool.slots.size

/-- The state of a name. -/
def state? (pool : ClassPool) (name : String) : Option PoolState :=
  pool.slots[name]?.map Slot.state

/-- The record under a name. -/
def record? (pool : ClassPool) (name : String) : Option PoolRecord :=
  pool.slots[name]?.bind Slot.record?

/-- The records in order of their names. -/
def entries (pool : ClassPool) : List PoolRecord :=
  pool.slots.toList.filterMap fun row => row.2.record?

/-- Register an imported class; the answer tells whether its name was free. -/
def add (pool : ClassPool) (record : ClassRecord) (source : Source) : ClassPool × Bool :=
  match pool.record? record.name with
  | some existing =>
    (pool.report
      { kind := .duplicateClass, uri := source.uri
        message := "class " ++ record.name ++ " already imported from " ++ existing.source.uri },
      false)
  | none => (pool.put record.name (.present { record, source, pulledIn := false }), true)

/-- What a search for a class brought. -/
inductive Pull
  | found (entry : PoolRecord)
  | unknown
  | failed (diagnostic : Diagnostic)

/-- Search the class file of a name and read it. A file that holds another class than the
one searched for is of no use. -/
def pull (checksums : Bool) (resolver : Resolver) (name : String) : Pull :=
  match resolver.locate name with
  | .ok none => .unknown
  | .error problem =>
    .failed { kind := .resolve, uri := "class:" ++ name, message := problem.message }
  | .ok (some artifact) =>
    let uri := artifact.origin.uri
    match artifact.content with
    | .error fault => .failed { kind := .read, uri, message := fault.message }
    | .ok bytes =>
      match ClassFile.read bytes with
      | .error fault => .failed { kind := .parse, uri, message := fault.message }
      | .ok record =>
        if record.name = name then
          .found {
            record, pulledIn := true
            source := .ofBytes artifact.origin bytes record.sourceFile checksums }
        else
          .failed { kind := .resolve, uri
                    message := "expected class " ++ name ++ ", found " ++ record.name }

/-- What a search can bring: nothing where the resolver knows nothing, the record that the
resolver supplies, or a failure. -/
theorem pull_cases (checksums : Bool) (resolver : Resolver) (name : String) :
    (resolver.locate name = .ok none ∧ pull checksums resolver name = .unknown) ∨
    (∃ entry, Supplies resolver.locate name entry.record ∧ entry.pulledIn = true ∧
      pull checksums resolver name = .found entry) ∨
    (resolver.locate name ≠ .ok none ∧ (∀ record, ¬ Supplies resolver.locate name record) ∧
      ∃ diagnostic, pull checksums resolver name = .failed diagnostic) := by
  -- A failure at any stage contradicts what supplying a record takes at that stage.
  cases located : resolver.locate name with
  | error problem =>
    refine Or.inr (Or.inr ⟨by simp, ?_, _, by rw [pull, located]⟩)
    rintro record ⟨artifact, bytes, found, _⟩
    simp [located] at found
  | ok answer =>
    cases answer with
    | none => exact Or.inl ⟨rfl, by rw [pull, located]⟩
    | some artifact =>
      refine Or.inr ?_
      cases content : artifact.content with
      | error fault =>
        refine Or.inr ⟨by simp, ?_, _, by simp only [pull, located, content]; rfl⟩
        rintro record ⟨other, bytes, found, readable, _⟩
        cases located.symm.trans found
        simp [content] at readable
      | ok bytes =>
        cases read : ClassFile.read bytes with
        | error fault =>
          refine Or.inr ⟨by simp, ?_, _, by simp only [pull, located, content, read]; rfl⟩
          rintro record ⟨other, otherBytes, found, readable, parsed, _⟩
          cases located.symm.trans found
          cases content.symm.trans readable
          simp [read] at parsed
        | ok record =>
          by_cases named : record.name = name
          · let source := Source.ofBytes artifact.origin bytes record.sourceFile checksums
            refine Or.inl ⟨{ record, source, pulledIn := true }, ?_, rfl, ?_⟩
            · exact ⟨artifact, bytes, located, content, read, named⟩
            · simp only [pull, located, content, read, named, if_true, source]
          · refine Or.inr ⟨by simp, ?_, _,
              by simp only [pull, located, content, read, named, if_false]; rfl⟩
            rintro other ⟨_, _, found, readable, parsed, isNamed⟩
            cases located.symm.trans found
            cases content.symm.trans readable
            cases read.symm.trans parsed
            exact named isNamed

/-- What a search finds, the resolver supplies. -/
theorem supplies_of_pull {checksums : Bool} {resolver : Resolver} {name : String}
    {entry : PoolRecord} (found : pull checksums resolver name = .found entry) :
    Supplies resolver.locate name entry.record := by
  rcases pull_cases checksums resolver name with
    ⟨_, outcome⟩ | ⟨other, supplied, _, outcome⟩ | ⟨_, _, _, outcome⟩
  · cases outcome.symm.trans found
  · cases outcome.symm.trans found
    exact supplied
  · cases outcome.symm.trans found

/-- The names not registered yet under which a resolver supplies classes. -/
noncomputable def unsearched (resolver : Resolver) (pool : ClassPool) : List String :=
  (Classical.choose resolver.finite).filter fun name => name ∉ pool.slots

/-- Registering a name takes it off the unsearched ones. -/
theorem unsearched_put (resolver : Resolver) (pool : ClassPool) (name : String) (slot : Slot) :
    unsearched resolver (pool.put name slot) =
      (unsearched resolver pool).filter fun other => name ≠ other := by
  rw [unsearched, unsearched, List.filter_filter]
  apply List.filter_congr
  intro other _
  simp [put, Std.TreeMap.mem_insert]

/-- Registering a name leaves no more names unsearched. -/
theorem unsearched_put_le (resolver : Resolver) (pool : ClassPool) (name : String) (slot : Slot) :
    (unsearched resolver (pool.put name slot)).length ≤ (unsearched resolver pool).length := by
  rw [unsearched_put]
  exact List.length_filter_le _ _

/-- Where a class was supplied for a name, fewer names are unsearched afterwards. -/
theorem unsearched_put_lt {resolver : Resolver} {pool : ClassPool} {name : String}
    {entry : PoolRecord} (fresh : name ∉ pool.slots)
    (found : pull pool.checksums resolver name = .found entry) (slot : Slot) :
    (unsearched resolver (pool.put name slot)).length < (unsearched resolver pool).length := by
  rw [unsearched_put, List.length_filter_lt_length_iff_exists]
  have supplied := Classical.choose_spec resolver.finite name entry.record (supplies_of_pull found)
  exact ⟨name, List.mem_filter.mpr ⟨supplied, by simpa using fresh⟩, by simp⟩

/-- Work off a queue of names. Every name that is not registered yet is searched; the
supertypes of a record that is found join the queue. -/
def completeFrom (resolver : Resolver) (queue : List String) (pool : ClassPool) : ClassPool :=
  match queue with
  | [] => pool
  | name :: rest =>
    if name ∈ pool.slots then completeFrom resolver rest pool
    else
      match _found : pull pool.checksums resolver name with
      | .unknown => completeFrom resolver rest (pool.put name .missing)
      | .failed diagnostic =>
        completeFrom resolver rest ((pool.report diagnostic).put name .missing)
      | .found entry =>
        completeFrom resolver (rest ++ entry.record.supertypeFiles)
          (pool.put name (.present entry))
termination_by ((unsearched resolver pool).length, queue.length)
decreasing_by
  · exact .right _ (by simp)
  · exact .right' _ (unsearched_put_le resolver pool name .missing) (by simp)
  · exact .right' _ (unsearched_put_le resolver (pool.report diagnostic) name .missing) (by simp)
  · exact .left _ _ (unsearched_put_lt ‹_› _found _)

/-- The class files that the records of the pool refer to. -/
def referencedFiles (pool : ClassPool) : List String :=
  pool.entries.flatMap fun entry => entry.record.referencedFiles

/-- Register all referenced classes, searching for those not present. -/
def complete (resolver : Resolver) (pool : ClassPool) : ClassPool :=
  completeFrom resolver pool.referencedFiles pool

/-- Register all referenced classes that are not present as missing. -/
def completeWithoutResolver (pool : ClassPool) : ClassPool :=
  pool.referencedFiles.foldl
    (fun pool name => if pool.slots.contains name then pool else pool.put name .missing) pool

end ClassPool

end ClassAtlas
