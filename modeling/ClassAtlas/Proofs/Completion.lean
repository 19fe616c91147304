import ClassAtlas.Import
import ClassAtlas.Proofs.ClassNames
import ClassAtlas.Proofs.PrefixFree
import Mathlib.Data.List.Nodup

/-!
# Completing a pool

Completing a pool works off a queue of names. A name that is registered is passed over; any
other is searched once, and what the search brought is registered. The queue starts with what
the records of the pool refer to and grows by the supertypes of records that were found.

The loop is stated here as a relation without a bound, which also keeps the names searched, in
order. That a run of it ends in a given pool is thus a statement about the loop itself. What
every run establishes is shown by induction on the run: names registered before stay as they
were, no name is searched twice, and the names searched are the least closure of what the pool
refers to. With a resolver that knows no class the loop registers missing names only, as does
completing a pool without a resolver.
-/

namespace ClassAtlas

namespace ClassRecord

/-- A record gives a type as its superclass or as an interface. -/
def Inherits (record : ClassRecord) (type : String) : Prop :=
  record.superclass = some type ∨ type ∈ record.interfaces

/-- Some method of a record accesses a member of a type. -/
def Accesses (record : ClassRecord) (owner : String) : Prop :=
  ∃ method ∈ record.methods, ∃ access ∈ method.accesses, access.owner = owner

/-- The supertypes are what the record inherits from. -/
theorem mem_supertypes_iff {record : ClassRecord} {type : String} :
    type ∈ record.supertypes ↔ record.Inherits type := by
  simp [supertypes, Inherits]

/-- The class files behind the supertypes are those that they lead to. -/
theorem mem_supertypeFiles_iff {record : ClassRecord} {name : String} :
    name ∈ record.supertypeFiles ↔ ∃ type, record.Inherits type ∧ LeadsTo type name := by
  simp only [supertypeFiles, List.mem_filterMap, mem_supertypes_iff, classFileName?_eq_some_iff]

/-- The access owners are the types with members that are accessed. -/
theorem mem_accessOwners_iff {record : ClassRecord} {owner : String} :
    owner ∈ record.accessOwners ↔ record.Accesses owner := by
  simp [accessOwners, Accesses]

/-- The class files that a record refers to are those that its supertypes and its access owners
lead to. -/
theorem mem_referencedFiles_iff {record : ClassRecord} {name : String} :
    name ∈ record.referencedFiles ↔
      ∃ type, (record.Inherits type ∨ record.Accesses type) ∧ LeadsTo type name := by
  simp only [referencedFiles, List.mem_append, mem_supertypeFiles_iff, List.mem_filterMap,
    mem_accessOwners_iff, classFileName?_eq_some_iff, or_and_right, exists_or]

end ClassRecord

namespace ClassPool

/-- The class files that a search leads on to: those behind the supertypes of what it found. -/
def Pull.further : Pull → List String
  | found entry => entry.record.supertypeFiles
  | unknown | failed _ => []

/-- What a search registers. -/
def Pull.slot : Pull → Slot
  | found entry => .present entry
  | unknown | failed _ => .missing

/-- The diagnostic that a search leaves. -/
def Pull.diagnostic? : Pull → Option Diagnostic
  | failed diagnostic => some diagnostic
  | found _ | unknown => none

/-- The pool when the outcome of a search is registered. -/
def settle (pool : ClassPool) (name : String) (outcome : Pull) : ClassPool :=
  { pool with
    slots := pool.slots.insert name outcome.slot
    diagnostics := pool.diagnostics ++ outcome.diagnostic?.toList }

/-- Working off a queue from one pool, some names are searched in order, and the work ends in
another pool. -/
inductive Completes (resolver : Resolver) :
    List String → ClassPool → List String → ClassPool → Prop
  | done (pool : ClassPool) : Completes resolver [] pool [] pool
  | known {name : String} {rest searched : List String} {pool final : ClassPool}
      (present : name ∈ pool.slots) (later : Completes resolver rest pool searched final) :
      Completes resolver (name :: rest) pool searched final
  | searched {name : String} {rest searched : List String} {pool final : ClassPool}
      (fresh : name ∉ pool.slots)
      (later : Completes resolver (rest ++ (pull pool.checksums resolver name).further)
        (pool.settle name (pull pool.checksums resolver name)) searched final) :
      Completes resolver (name :: rest) pool (name :: searched) final

/-- The names that completing a pool has to register: those that the supertypes and access owners
of its records lead to, and those that the supertypes of every record lead to that is supplied for
such a name, unless the name was registered already. -/
inductive Wanted (resolver : Resolver) (pool : ClassPool) : String → Prop
  | referenced {key type name : String} {entry : PoolRecord}
      (present : pool.slots[key]? = some (.present entry))
      (refers : entry.record.Inherits type ∨ entry.record.Accesses type)
      (leads : LeadsTo type name) : Wanted resolver pool name
  | supertype {name type next : String} {record : ClassRecord}
      (wanted : Wanted resolver pool name) (fresh : name ∉ pool.slots)
      (supplied : Supplies resolver.locate name record) (above : record.Inherits type)
      (leads : LeadsTo type next) : Wanted resolver pool next

/-- A resolver supplies at most one record for a name. -/
theorem supplied_unique {locate : String → Except ResolveError (Option Artifact)} {name : String}
    {first second : ClassRecord} (supplied : Supplies locate name first)
    (again : Supplies locate name second) : first = second := by
  obtain ⟨artifact, bytes, located, content, read, _⟩ := supplied
  obtain ⟨artifact', bytes', located', content', read', _⟩ := again
  cases located.symm.trans located'
  cases content.symm.trans content'
  exact Except.ok.inj (read.symm.trans read')

section Searches

variable (checksums : Bool) {resolver : Resolver} {name : String}

/-- A record that is registered is supplied, and marked as pulled in. -/
theorem supplies_of_slot_pull {entry : PoolRecord}
    (registered : (pull checksums resolver name).slot = .present entry) :
    Supplies resolver.locate name entry.record ∧ entry.pulledIn = true := by
  rcases pull_cases checksums resolver name with
    ⟨_, outcome⟩ | ⟨found, supplied, pulledIn, outcome⟩ | ⟨_, _, _, outcome⟩
  · simp [outcome, Pull.slot] at registered
  · rw [outcome] at registered
    cases registered
    exact ⟨supplied, pulledIn⟩
  · simp [outcome, Pull.slot] at registered

/-- A record that is supplied is registered. -/
theorem slot_pull_of_supplies {record : ClassRecord}
    (supplied : Supplies resolver.locate name record) :
    ∃ entry, (pull checksums resolver name).slot = .present entry ∧ entry.record = record := by
  rcases pull_cases checksums resolver name with
    ⟨unknown, _⟩ | ⟨entry, found, _, outcome⟩ | ⟨_, unsupplied, _⟩
  · obtain ⟨_, _, located, _⟩ := supplied
    simp [unknown] at located
  · exact ⟨entry, by rw [outcome, Pull.slot], supplied_unique found supplied⟩
  · exact absurd supplied (unsupplied record)

/-- A name is registered as missing exactly where no record is supplied. -/
theorem slot_pull_eq_missing_iff :
    (pull checksums resolver name).slot = .missing ↔
      ∀ record, ¬ Supplies resolver.locate name record := by
  constructor
  · intro missing record supplied
    obtain ⟨entry, present, _⟩ := slot_pull_of_supplies checksums supplied
    simp [missing] at present
  · intro unsupplied
    rcases pull_cases checksums resolver name with
      ⟨_, outcome⟩ | ⟨entry, supplied, _⟩ | ⟨_, _, _, outcome⟩
    · simp only [outcome, Pull.slot]
    · exact absurd supplied (unsupplied entry.record)
    · simp only [outcome, Pull.slot]

/-- A search leaves no diagnostic exactly where the resolver knows nothing of the name or
supplies a record for it. -/
theorem diagnostic_pull_eq_none_iff :
    (pull checksums resolver name).diagnostic? = none ↔
      resolver.locate name = .ok none ∨ ∃ record, Supplies resolver.locate name record := by
  rcases pull_cases checksums resolver name with
    ⟨unknown, outcome⟩ | ⟨entry, supplied, _, outcome⟩ | ⟨known, unsupplied, _, outcome⟩
  · simp [outcome, Pull.diagnostic?, unknown]
  · simp only [outcome, Pull.diagnostic?, true_iff]
    exact Or.inr ⟨entry.record, supplied⟩
  · simp [outcome, Pull.diagnostic?, known, unsupplied]

/-- A search leads on to the supertypes of the record that is supplied. -/
theorem mem_further_pull_iff {next : String} :
    next ∈ (pull checksums resolver name).further ↔
      ∃ record, Supplies resolver.locate name record ∧ next ∈ record.supertypeFiles := by
  rcases pull_cases checksums resolver name with
    ⟨unknown, outcome⟩ | ⟨entry, supplied, _, outcome⟩ | ⟨_, unsupplied, _, outcome⟩
  · simp [outcome, Pull.further, Supplies, unknown]
  · simp only [outcome, Pull.further]
    constructor
    · exact fun above => ⟨entry.record, supplied, above⟩
    · rintro ⟨record, again, above⟩
      rwa [supplied_unique supplied again]
  · simp [outcome, Pull.further, unsupplied]

end Searches

/-- A search whose outcome is known is one step of the loop. -/
theorem Completes.step {resolver : Resolver} {name : String} {rest searched : List String}
    {pool final : ClassPool} {outcome : Pull} (fresh : name ∉ pool.slots)
    (brought : pull pool.checksums resolver name = outcome)
    (later : Completes resolver (rest ++ outcome.further) (pool.settle name outcome) searched
      final) :
    Completes resolver (name :: rest) pool (name :: searched) final := by
  subst brought
  exact .searched fresh later

/-- Working off a queue is a run of the loop. -/
theorem completes_completeFrom (resolver : Resolver) (queue : List String) (pool : ClassPool) :
    ∃ searched, Completes resolver queue pool searched (completeFrom resolver queue pool) := by
  fun_induction completeFrom resolver queue pool with
  | case1 pool => exact ⟨[], .done pool⟩
  | case2 pool name rest present inductionHypothesis =>
    obtain ⟨searched, run⟩ := inductionHypothesis
    exact ⟨searched, .known present run⟩
  | case3 pool name rest fresh brought inductionHypothesis =>
    obtain ⟨searched, run⟩ := inductionHypothesis
    refine ⟨name :: searched, .step fresh brought ?_⟩
    simpa [Pull.further, settle, Pull.slot, Pull.diagnostic?, put] using run
  | case4 pool name rest fresh diagnostic brought inductionHypothesis =>
    obtain ⟨searched, run⟩ := inductionHypothesis
    refine ⟨name :: searched, .step fresh brought ?_⟩
    simpa [Pull.further, settle, Pull.slot, Pull.diagnostic?, put, report] using run
  | case5 pool name rest fresh entry brought inductionHypothesis =>
    obtain ⟨searched, run⟩ := inductionHypothesis
    refine ⟨name :: searched, .step fresh brought ?_⟩
    simpa [Pull.further, settle, Pull.slot, Pull.diagnostic?, put] using run

/-- The loop leaves no choice: every run from a queue and a pool ends where working off the queue
does. -/
theorem Completes.completeFrom_eq {resolver : Resolver} {queue searched : List String}
    {pool final : ClassPool} (run : Completes resolver queue pool searched final) :
    completeFrom resolver queue pool = final := by
  induction run with
  | done pool => rw [completeFrom]
  | known present _ inductionHypothesis => rw [completeFrom, if_pos present, inductionHypothesis]
  | searched fresh _ inductionHypothesis =>
    rw [completeFrom, if_neg fresh, ← inductionHypothesis]
    split <;> rename_i brought <;>
      simp [brought, Pull.further, settle, Pull.slot, Pull.diagnostic?, put, report]

/-- With a resolver that knows no class, completing a pool only registers missing names. -/
theorem complete_of_unknown (resolver : Resolver)
    (unknown : ∀ name, resolver.locate name = .ok none) (pool : ClassPool) :
    pool.complete resolver = pool.completeWithoutResolver := by
  have loop (queue : List String) (pool : ClassPool) : completeFrom resolver queue pool =
      queue.foldl (fun pool name =>
        if pool.slots.contains name then pool else pool.put name .missing) pool := by
    fun_induction completeFrom resolver queue pool with
    | case1 pool => rfl
    | case2 pool name rest present inductionHypothesis =>
      rw [inductionHypothesis, List.foldl_cons, if_pos (Std.TreeMap.mem_iff_contains.mp present)]
    | case3 pool name rest fresh brought inductionHypothesis =>
      rw [inductionHypothesis, List.foldl_cons, if_neg (mt Std.TreeMap.mem_iff_contains.mpr fresh)]
    | case4 pool name rest fresh diagnostic brought => simp [pull, unknown] at brought
    | case5 pool name rest fresh entry brought => simp [pull, unknown] at brought
  exact loop pool.referencedFiles pool

namespace Completes

variable {resolver : Resolver} {queue searched : List String} {pool final : ClassPool}

/-- Only names that were not registered are searched. -/
theorem fresh_of_mem (run : Completes resolver queue pool searched final) {name : String}
    (isSearched : name ∈ searched) : name ∉ pool.slots := by
  induction run with
  | done => simp at isSearched
  | known _ _ inductionHypothesis => exact inductionHypothesis isSearched
  | searched fresh _ inductionHypothesis =>
    rcases List.mem_cons.mp isSearched with rfl | later
    · exact fresh
    · have unregistered := inductionHypothesis later
      simp only [settle, Std.TreeMap.mem_insert, not_or] at unregistered
      exact unregistered.2

/-- No name is searched twice. -/
theorem searched_nodup (run : Completes resolver queue pool searched final) :
    searched.Nodup := by
  induction run with
  | done => exact List.nodup_nil
  | known _ _ inductionHypothesis => exact inductionHypothesis
  | searched _ later inductionHypothesis =>
    refine List.nodup_cons.mpr ⟨fun again => later.fresh_of_mem again ?_, inductionHypothesis⟩
    simp [settle]

/-- A name that is not searched stays as it was. -/
theorem getElem?_of_not_mem (run : Completes resolver queue pool searched final) {name : String}
    (unsearched : name ∉ searched) : final.slots[name]? = pool.slots[name]? := by
  induction run with
  | done => rfl
  | known _ _ inductionHypothesis => exact inductionHypothesis unsearched
  | searched _ _ inductionHypothesis =>
    rw [List.mem_cons, not_or] at unsearched
    rw [inductionHypothesis unsearched.2, settle, Std.TreeMap.getElem?_insert,
      if_neg (by simpa using Ne.symm unsearched.1)]

/-- A name that is searched holds what its search brought. -/
theorem getElem?_of_mem (run : Completes resolver queue pool searched final) {name : String}
    (isSearched : name ∈ searched) :
    final.slots[name]? = some (pull pool.checksums resolver name).slot := by
  induction run with
  | done => simp at isSearched
  | known _ _ inductionHypothesis => exact inductionHypothesis isSearched
  | searched _ later inductionHypothesis =>
    rcases List.mem_cons.mp isSearched with rfl | isLater
    · -- The search registers the name, so that no later one touches it.
      rw [later.getElem?_of_not_mem fun again => later.fresh_of_mem again (by simp [settle])]
      simp [settle]
    · exact inductionHypothesis isLater

/-- The names registered in the end. -/
theorem mem_iff (run : Completes resolver queue pool searched final) {name : String} :
    name ∈ final.slots ↔ name ∈ pool.slots ∨ name ∈ searched := by
  by_cases isSearched : name ∈ searched
  · simp only [Std.TreeMap.mem_iff_isSome_getElem?, run.getElem?_of_mem isSearched, isSearched,
      Option.isSome_some, or_true]
  · simp only [Std.TreeMap.mem_iff_isSome_getElem?, run.getElem?_of_not_mem isSearched, isSearched,
      or_false]

/-- Every name that waits is registered in the end. -/
theorem mem_of_queued (run : Completes resolver queue pool searched final) {name : String}
    (queued : name ∈ queue) : name ∈ final.slots := by
  induction run with
  | done => simp at queued
  | known present later inductionHypothesis =>
    rcases List.mem_cons.mp queued with rfl | waits
    · exact later.mem_iff.mpr (Or.inl present)
    · exact inductionHypothesis waits
  | searched _ later inductionHypothesis =>
    rcases List.mem_cons.mp queued with rfl | waits
    · exact later.mem_iff.mpr (Or.inl (by simp [settle]))
    · exact inductionHypothesis (List.mem_append_left _ waits)

/-- What a search leads on to is registered in the end. -/
theorem mem_of_further (run : Completes resolver queue pool searched final)
    {name next : String} (isSearched : name ∈ searched)
    (leads : next ∈ (pull pool.checksums resolver name).further) : next ∈ final.slots := by
  induction run with
  | done => simp at isSearched
  | known _ _ inductionHypothesis => exact inductionHypothesis isSearched leads
  | searched _ later inductionHypothesis =>
    rcases List.mem_cons.mp isSearched with rfl | isLater
    · exact later.mem_of_queued (List.mem_append_right _ leads)
    · exact inductionHypothesis isLater leads

/-- A property that holds of what waits, and passes from every name not registered to what its
search leads on to, holds of every name searched. -/
theorem forall_searched {property : String → Prop}
    (run : Completes resolver queue pool searched final)
    (waits : ∀ name ∈ queue, property name)
    (passes : ∀ name, name ∉ pool.slots → property name →
      ∀ next ∈ (pull pool.checksums resolver name).further, property next) :
    ∀ name ∈ searched, property name := by
  induction run with
  | done => simp
  | known _ _ inductionHypothesis =>
    exact inductionHypothesis (fun name queued => waits name (List.mem_cons_of_mem _ queued)) passes
  | @searched name rest _ pool _ fresh _ inductionHypothesis =>
    have holds : property name := waits name List.mem_cons_self
    refine List.forall_mem_cons.mpr ⟨holds, inductionHypothesis ?_ ?_⟩
    · intro other queued
      rcases List.mem_append.mp queued with stillWaits | leads
      · exact waits other (List.mem_cons_of_mem _ stillWaits)
      · exact passes name fresh holds other leads
    · intro other unregistered
      refine passes other fun present => unregistered ?_
      simp [settle, present]

/-- The diagnostics of the searches follow those of the pool, in the order of the searches. -/
theorem diagnostics_eq (run : Completes resolver queue pool searched final) :
    final.diagnostics = pool.diagnostics ++
      searched.filterMap fun name => (pull pool.checksums resolver name).diagnostic? := by
  induction run with
  | done => simp
  | known _ _ inductionHypothesis => exact inductionHypothesis
  | searched _ _ inductionHypothesis =>
    rw [inductionHypothesis, List.filterMap_cons]
    cases outcome : (pull _ resolver _).diagnostic? <;> simp [settle, outcome]

end Completes

/-- The pools that hold imported classes only: those that registering imported classes and
reporting diagnostics lead to. -/
inductive Collected : ClassPool → Prop
  | empty (checksums : Bool) : Collected (.empty checksums)
  | add {pool : ClassPool} (collected : Collected pool) (record : ClassRecord) (source : Source) :
      Collected (pool.add record source).1
  | report {pool : ClassPool} (collected : Collected pool) (diagnostic : Diagnostic) :
      Collected (pool.report diagnostic)

/-- Every name of a pool of imported classes holds a class of that name. -/
theorem Collected.named {pool : ClassPool} (collected : Collected pool) {name : String}
    {slot : Slot} (registered : pool.slots[name]? = some slot) :
    ∃ entry, slot = .present entry ∧ entry.pulledIn = false ∧ entry.record.name = name := by
  induction collected with
  | empty => simp [ClassPool.empty] at registered
  | @add pool _ record source inductionHypothesis =>
    rw [ClassPool.add] at registered
    split at registered
    · exact inductionHypothesis registered
    · rw [put, Std.TreeMap.getElem?_insert] at registered
      split at registered
      · rename_i isNew
        cases registered
        exact ⟨_, rfl, rfl, by simpa using isNew⟩
      · exact inductionHypothesis registered
  | report _ _ inductionHypothesis => exact inductionHypothesis registered

/-- Reading artifacts leads to such pools. -/
theorem Collected.collect {pool : ClassPool} (collected : Collected pool)
    (artifacts : List Artifact) : Collected (artifacts.foldl ClassPool.collect pool) := by
  induction artifacts generalizing pool with
  | nil => exact collected
  | cons artifact rest inductionHypothesis =>
    refine inductionHypothesis ?_
    rw [ClassPool.collect]
    split
    · exact collected.add _ _
    · exact collected.report _

/-- The records of a pool are those under its names. -/
theorem mem_entries_iff {pool : ClassPool} {entry : PoolRecord} :
    entry ∈ pool.entries ↔ ∃ key : String, pool.slots[key]? = some (.present entry) := by
  simp only [entries, List.mem_filterMap, Prod.exists, Std.TreeMap.mem_toList_iff_getElem?_eq_some]
  refine exists_congr fun key => ⟨?_, fun present => ⟨_, present, rfl⟩⟩
  rintro ⟨slot, registered, isRecord⟩
  cases slot with
  | present other =>
    cases isRecord
    exact registered
  | missing => simp [Slot.record?] at isRecord

/-- The names that wait at first are those that the supertypes and the access owners of the
records of the pool lead to. -/
theorem mem_referencedFiles_iff {pool : ClassPool} {name : String} :
    name ∈ pool.referencedFiles ↔
      ∃ (key : String) (entry : PoolRecord) (type : String),
        pool.slots[key]? = some (.present entry) ∧
        (entry.record.Inherits type ∨ entry.record.Accesses type) ∧ LeadsTo type name := by
  simp only [referencedFiles, List.mem_flatMap, mem_entries_iff,
    ClassRecord.mem_referencedFiles_iff]
  constructor
  · rintro ⟨entry, ⟨key, present⟩, type, refers, leads⟩
    exact ⟨key, entry, type, present, refers, leads⟩
  · rintro ⟨key, entry, type, present, refers, leads⟩
    exact ⟨entry, ⟨key, present⟩, type, refers, leads⟩

/-- A pool was completed by searching some names in order. -/
structure CompletedBy (resolver : Resolver) (pool completed : ClassPool) (searched : List String) :
    Prop where
  /-- The loop comes to its end there. -/
  ends : Completes resolver pool.referencedFiles pool searched completed
  /-- No name is searched twice. -/
  once : searched.Nodup
  /-- The names searched are those wanted and not registered before. -/
  searched_iff (name : String) : name ∈ searched ↔ Wanted resolver pool name ∧ name ∉ pool.slots
  /-- They are the ones that are new. -/
  mem_iff (name : String) : name ∈ completed.slots ↔ name ∈ pool.slots ∨ name ∈ searched
  /-- What was registered before stays. -/
  kept {name : String} (present : name ∈ pool.slots) : completed.slots[name]? = pool.slots[name]?
  /-- A searched name holds a record pulled in exactly where one is supplied, and it is that
  record. -/
  pulledIn_iff {name : String} (isSearched : name ∈ searched) (record : ClassRecord) :
    (∃ entry, completed.slots[name]? = some (.present entry) ∧ entry.pulledIn = true ∧
      entry.record = record) ↔ Supplies resolver.locate name record
  /-- Otherwise it is missing. -/
  missing_iff {name : String} (isSearched : name ∈ searched) :
    completed.slots[name]? = some .missing ↔ ∀ record, ¬ Supplies resolver.locate name record
  /-- Each search leaves at most one diagnostic, -/
  diagnostics_eq : completed.diagnostics = pool.diagnostics ++
    searched.filterMap fun name => (pull pool.checksums resolver name).diagnostic?
  /-- and none exactly where the resolver knows nothing of the name or supplies a record. -/
  silent_iff (name : String) :
    (pull pool.checksums resolver name).diagnostic? = none ↔
      resolver.locate name = .ok none ∨ ∃ record, Supplies resolver.locate name record
  /-- Every record stands under its own name. -/
  named {name : String} {entry : PoolRecord}
    (present : completed.slots[name]? = some (.present entry)) : entry.record.name = name

/-- The names searched by a run from what a pool refers to are those wanted and not registered
before. -/
theorem Completes.mem_searched_iff {resolver : Resolver} {pool final : ClassPool}
    {searched : List String} (run : Completes resolver pool.referencedFiles pool searched final)
    {name : String} : name ∈ searched ↔ Wanted resolver pool name ∧ name ∉ pool.slots := by
  constructor
  · intro isSearched
    refine ⟨?_, run.fresh_of_mem isSearched⟩
    refine run.forall_searched ?_ ?_ name isSearched
    · intro other queued
      obtain ⟨key, entry, type, present, refers, leads⟩ := mem_referencedFiles_iff.mp queued
      exact .referenced present refers leads
    · intro other fresh wanted next isFurther
      obtain ⟨record, supplied, listed⟩ := (mem_further_pull_iff _).mp isFurther
      obtain ⟨type, above, leads⟩ := ClassRecord.mem_supertypeFiles_iff.mp listed
      exact .supertype wanted fresh supplied above leads
  · rintro ⟨wanted, fresh⟩
    -- By induction on why a name is wanted, every wanted name is registered in the end.
    suffices registered : name ∈ final.slots from (run.mem_iff.mp registered).resolve_left fresh
    clear fresh
    induction wanted with
    | referenced present refers leads =>
      exact run.mem_of_queued (mem_referencedFiles_iff.mpr ⟨_, _, _, present, refers, leads⟩)
    | supertype _ fresh supplied above leads registered =>
      have isSearched := (run.mem_iff.mp registered).resolve_left fresh
      refine run.mem_of_further isSearched ((mem_further_pull_iff _).mpr ⟨_, supplied, ?_⟩)
      exact ClassRecord.mem_supertypeFiles_iff.mpr ⟨_, above, leads⟩

section Unknown

variable {resolver : Resolver} (unknown : ∀ name, resolver.locate name = .ok none)
include unknown

/-- A resolver that knows no class supplies none. -/
theorem not_supplies_of_unknown (name : String) (record : ClassRecord) :
    ¬ Supplies resolver.locate name record := by
  rintro ⟨artifact, bytes, located, _⟩
  simp [unknown] at located

/-- Where nothing is supplied, only what the pool itself refers to is wanted. -/
theorem wanted_iff_of_unknown {pool : ClassPool} {name : String} :
    Wanted resolver pool name ↔ name ∈ pool.referencedFiles := by
  constructor
  · intro wanted
    cases wanted with
    | referenced present refers leads =>
      exact mem_referencedFiles_iff.mpr ⟨_, _, _, present, refers, leads⟩
    | supertype _ _ supplied => exact absurd supplied (not_supplies_of_unknown unknown _ _)
  · intro queued
    obtain ⟨key, entry, type, present, refers, leads⟩ := mem_referencedFiles_iff.mp queued
    exact .referenced present refers leads

/-- Then completing a pool keeps what is registered and registers the rest as missing. -/
theorem getElem?_complete_of_unknown (pool : ClassPool) (name : String) :
    (pool.complete resolver).slots[name]? =
      pool.slots[name]?.or (if name ∈ pool.referencedFiles then some .missing else none) := by
  obtain ⟨searched, run⟩ := completes_completeFrom resolver pool.referencedFiles pool
  have isSearched : name ∈ searched ↔ name ∈ pool.referencedFiles ∧ name ∉ pool.slots := by
    rw [run.mem_searched_iff, wanted_iff_of_unknown unknown]
  rw [complete]
  by_cases present : name ∈ pool.slots
  · rw [run.getElem?_of_not_mem fun listed => (isSearched.mp listed).2 present]
    obtain ⟨slot, registered⟩ := Option.isSome_iff_exists.mp
      (Std.TreeMap.mem_iff_isSome_getElem?.mp present)
    rw [registered, Option.some_or]
  · have unregistered : pool.slots[name]? = none := Std.TreeMap.getElem?_eq_none present
    rw [unregistered, Option.none_or]
    split
    · rename_i queued
      rw [run.getElem?_of_mem (isSearched.mpr ⟨queued, present⟩),
        (slot_pull_eq_missing_iff pool.checksums).mpr (not_supplies_of_unknown unknown name)]
    · rename_i notQueued
      rw [run.getElem?_of_not_mem fun listed => notQueued (isSearched.mp listed).1, unregistered]

/-- No search leaves a diagnostic. -/
theorem diagnostics_complete_of_unknown (pool : ClassPool) :
    (pool.complete resolver).diagnostics = pool.diagnostics := by
  obtain ⟨searched, run⟩ := completes_completeFrom resolver pool.referencedFiles pool
  have silent (name : String) : (pull pool.checksums resolver name).diagnostic? = none :=
    (diagnostic_pull_eq_none_iff pool.checksums).mpr (Or.inl (unknown name))
  rw [complete, run.diagnostics_eq]
  simp [silent]

end Unknown

/-- Completing a pool of imported classes comes to an end and registers the least closure of
what the pool refers to: a record pulled in for every name that the resolver supplies one for,
and a missing class otherwise. -/
theorem complete_least_closure (resolver : Resolver) {pool : ClassPool}
    (collected : pool.Collected) :
    ∃ searched, CompletedBy resolver pool (pool.complete resolver) searched := by
  obtain ⟨searched, run⟩ := completes_completeFrom resolver pool.referencedFiles pool
  refine ⟨searched, {
    ends := run
    once := run.searched_nodup
    searched_iff := fun name => run.mem_searched_iff
    mem_iff := fun name => run.mem_iff
    kept := fun present => run.getElem?_of_not_mem fun isSearched =>
      run.fresh_of_mem isSearched present
    pulledIn_iff := ?_
    missing_iff := ?_
    diagnostics_eq := run.diagnostics_eq
    silent_iff := fun name => diagnostic_pull_eq_none_iff pool.checksums
    named := ?_ }⟩
  · intro name isSearched record
    rw [complete, run.getElem?_of_mem isSearched]
    constructor
    · rintro ⟨entry, registered, _, rfl⟩
      exact (supplies_of_slot_pull _ (Option.some.inj registered)).1
    · intro supplied
      obtain ⟨entry, registered, isRecord⟩ := slot_pull_of_supplies pool.checksums supplied
      exact ⟨entry, congrArg some registered, (supplies_of_slot_pull _ registered).2, isRecord⟩
  · intro name isSearched
    rw [complete, run.getElem?_of_mem isSearched, Option.some.injEq, slot_pull_eq_missing_iff]
  · intro name entry present
    by_cases isSearched : name ∈ searched
    · rw [complete, run.getElem?_of_mem isSearched] at present
      obtain ⟨⟨_, _, _, _, _, named⟩, _⟩ := supplies_of_slot_pull _ (Option.some.inj present)
      exact named
    · rw [complete, run.getElem?_of_not_mem isSearched] at present
      obtain ⟨_, ⟨⟩, _, named⟩ := collected.named present
      exact named

/-- A class `C` below `P`. -/
def chainPool : ClassPool :=
  [Artifact.ofBytes "C" (ClassFile.derivedClass 67 80)].foldl collect (.empty false)

/-- A resolver that supplies `P`, a class below `S`. -/
def chainResolver : Resolver :=
  .ofTable [("P", .ok (.ofBytes "P" (ClassFile.derivedClass 80 83)))]

/-- The pool with `P` pulled in and `S` missing. -/
def chainCompleted : ClassPool :=
  (chainPool.settle "P" (pull false chainResolver "P")).settle "S" .unknown

/-- Completing the pool takes two searches: that for `P` leads on to `S`, of which nothing is
known. -/
theorem complete_chainPool : chainPool.complete chainResolver = chainCompleted := by
  have waiting : chainPool.referencedFiles = ["P"] := by decide +kernel
  have further : (pull false chainResolver "P").further = ["S"] := by decide +kernel
  have second : Completes chainResolver ["S"] (chainPool.settle "P" (pull false chainResolver "P"))
      ["S"] chainCompleted :=
    .step (by decide +kernel) rfl (.done _)
  have first : Completes chainResolver ["P"] chainPool ["P", "S"] chainCompleted :=
    .step (by decide +kernel) rfl (further ▸ second)
  rw [complete, waiting, first.completeFrom_eq]

/-- Of three classes, each below the next, the first is imported, the second is pulled in and the
third is missing. There is nothing to report. -/
theorem complete_least_closure_chain :
    chainPool.Collected ∧
      (∃ searched,
        CompletedBy chainResolver chainPool (chainPool.complete chainResolver) searched) ∧
      ((chainPool.complete chainResolver).slots.toList.map fun row => (row.1, row.2.state)) =
        [("C", .imported), ("P", .pulledIn), ("S", .missing)] ∧
      (chainPool.complete chainResolver).diagnostics = [] := by
  have collected : chainPool.Collected := (Collected.empty false).collect _
  refine ⟨collected, complete_least_closure chainResolver collected, ?_⟩
  rw [complete_chainPool]
  exact ⟨by decide +kernel, rfl⟩

end ClassPool

/-- Searching with a resolver that knows no class is the same as not searching at all: both leave
the pool with what it held and every other class that it refers to as missing, and nothing to
report. So an import comes to the same outcome in both ways. -/
theorem importArtifacts_of_unknown (resolver : Resolver)
    (unknown : ∀ name, resolver.locate name = .ok none) :
    (∀ pool : ClassPool, pool.complete resolver = pool.completeWithoutResolver ∧
      (pool.complete resolver).diagnostics = pool.diagnostics ∧
      ∀ name : String, (pool.complete resolver).slots[name]? =
        pool.slots[name]?.or (if name ∈ pool.referencedFiles then some .missing else none)) ∧
    ∀ (options : ImportOptions) (other : Resolver) (artifacts : List Artifact),
      importArtifacts { options with resolveMissing := false } other artifacts =
        importArtifacts { options with resolveMissing := true } resolver artifacts := by
  constructor
  · intro pool
    exact ⟨ClassPool.complete_of_unknown resolver unknown pool,
      ClassPool.diagnostics_complete_of_unknown unknown pool,
      ClassPool.getElem?_complete_of_unknown unknown pool⟩
  · intro options other artifacts
    simp only [importArtifacts, ClassPool.complete_of_unknown resolver unknown,
      Bool.false_eq_true, if_false, if_true]

/-- The superclass of a class that is imported alone is missing, even if it could be supplied. -/
theorem importArtifacts_of_unknown_derived :
    let supplying := Resolver.ofTable [("P", .ok (.ofBytes "P" (ClassFile.derivedClass 80 83)))]
    let artifacts := [Artifact.ofBytes "C" (ClassFile.derivedClass 67 80)]
    (∀ name, Resolver.none.locate name = .ok none) ∧
      importArtifacts { resolveMissing := false } supplying artifacts =
        importArtifacts { resolveMissing := true } .none artifacts ∧
      (∀ pool : ClassPool, pool.complete .none = pool.completeWithoutResolver) ∧
      ((importArtifacts { resolveMissing := false } supplying artifacts).graph.classes.map
        fun node => (node.name, node.isStub)) = #[("C", false), ("P", true)] := by
  intro supplying artifacts
  have unknown : ∀ name, Resolver.none.locate name = .ok none := fun _ => rfl
  obtain ⟨completed, imported⟩ := importArtifacts_of_unknown .none unknown
  exact ⟨unknown, imported {} supplying artifacts, fun pool => (completed pool).1,
    by decide +kernel⟩

end ClassAtlas
