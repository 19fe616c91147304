import ClassAtlas.Types.Cache
import Mathlib.Data.Finset.Card

/-!
# Readings from a cache

A cache is asked for types, field descriptors and method descriptors in any order, and one text may
be asked for in all three ways. That this cannot be told from reading each text anew is shown by
what a cache holds after a sequence of calls: under a kind and a text there is a reading exactly if
the two were asked for together and the text could be read. Each call keeps it so, a failed one by
leaving the cache alone.
-/

namespace ClassAtlas.DescriptorCache

/-- What a cache can be asked for. -/
inductive Kind
  | type
  | field
  | method
  deriving DecidableEq

namespace Kind

/-- What the texts of a kind stand for. -/
abbrev Value : Kind → Type
  | type => TypeName
  | field => TypeName
  | method => MethodDescriptor

/-- Read a text of a kind without a cache. -/
def read : (kind : Kind) → String → Except SpellingError kind.Value
  | type => TypeName.parse
  | field => TypeName.ofDescriptor
  | method => MethodDescriptor.parse

/-- Ask a cache for a text of a kind. -/
def ask (cache : DescriptorCache) :
    (kind : Kind) → String → Except SpellingError kind.Value × DescriptorCache
  | type => cache.resolve
  | field => cache.field
  | method => cache.method

/-- The readings of a kind that a cache holds. -/
def known (cache : DescriptorCache) : (kind : Kind) → Std.HashMap String kind.Value
  | type => cache.types
  | field => cache.fields
  | method => cache.methods

/-- A cache with other readings of a kind. -/
def withKnown (cache : DescriptorCache) :
    (kind : Kind) → Std.HashMap String kind.Value → DescriptorCache
  | type, types => { cache with types }
  | field, fields => { cache with fields }
  | method, methods => { cache with methods }

end Kind

/-- The cache after a sequence of calls, each a kind and a text. -/
def after (calls : List (Kind × String)) : DescriptorCache :=
  calls.foldl (fun cache call => (call.1.ask cache call.2).2) empty

/-- The calls of a sequence whose texts can be read, each once. -/
def successes (calls : List (Kind × String)) : Finset (Kind × String) :=
  calls.toFinset.filter fun call => (call.1.read call.2).isOk

/-- A cache holds what was read in a sequence of calls. -/
structure Remembers (cache : DescriptorCache) (calls : List (Kind × String)) : Prop where
  found_iff : ∀ (kind : Kind) (text : String) (value : kind.Value),
    (kind.known cache)[text]? = some value ↔ (kind, text) ∈ calls ∧ kind.read text = .ok value
  size_eq : cache.size = (successes calls).card

/-! ## One call -/

section Remember

variable {α : Type} {table : Std.HashMap String α} {read : String → Except SpellingError α}
  {text : String} {value : α} {problem : SpellingError}

/-- A text that is known is not read again. -/
theorem remember_of_known (found : table[text]? = some value) :
    remember table read text = (.ok value, table) := by
  simp only [remember, found]

/-- A text that is new and can be read is remembered. -/
theorem remember_of_read (fresh : table[text]? = none) (reads : read text = .ok value) :
    remember table read text = (.ok value, table.insert text value) := by
  simp only [remember, fresh, reads]

/-- A text that cannot be read is not remembered. -/
theorem remember_of_fault (fresh : table[text]? = none) (fails : read text = .error problem) :
    remember table read text = (.error problem, table) := by
  simp only [remember, fresh, fails]

end Remember

variable {cache : DescriptorCache} {calls : List (Kind × String)} {kind : Kind} {text : String}
  {problem : SpellingError}

/-- All kinds are asked for in one way, each among its own readings. -/
theorem ask_eq (cache : DescriptorCache) (kind : Kind) (text : String) :
    kind.ask cache text = ((remember (kind.known cache) kind.read text).1,
      kind.withKnown cache (remember (kind.known cache) kind.read text).2) := by
  cases kind <;> rfl

/-- Putting back the table of a kind changes nothing. -/
@[simp]
theorem withKnown_known (cache : DescriptorCache) (kind : Kind) :
    kind.withKnown cache (kind.known cache) = cache := by
  cases kind <;> rfl

/-- The table of a kind that was put in is the one found there. -/
@[simp]
theorem known_withKnown (cache : DescriptorCache) (kind : Kind)
    (table : Std.HashMap String kind.Value) : kind.known (kind.withKnown cache table) = table := by
  cases kind <;> rfl

/-- Putting in the table of one kind leaves that of another as it was. -/
theorem known_withKnown_of_ne {other : Kind} (different : other ≠ kind)
    (table : Std.HashMap String kind.Value) :
    other.known (kind.withKnown cache table) = other.known cache := by
  cases kind <;> cases other
  case type.type | field.field | method.method => exact absurd rfl different
  all_goals rfl

/-- Putting in a table changes the size by as much as the tables differ. -/
theorem size_withKnown (cache : DescriptorCache) (kind : Kind)
    (table : Std.HashMap String kind.Value) :
    (kind.withKnown cache table).size + (kind.known cache).size = cache.size + table.size := by
  cases kind <;> simp only [Kind.withKnown, Kind.known, size] <;> omega

/-- Asking for a text that is known answers with its value and leaves the cache as it was. -/
theorem ask_of_known {value : kind.Value} (found : (kind.known cache)[text]? = some value) :
    kind.ask cache text = (.ok value, cache) := by
  rw [ask_eq, remember_of_known found, withKnown_known]

/-- Asking for a new text that can be read answers with its value and remembers it. -/
theorem ask_of_read {value : kind.Value} (fresh : (kind.known cache)[text]? = none)
    (reads : kind.read text = .ok value) :
    kind.ask cache text =
      (.ok value, kind.withKnown cache ((kind.known cache).insert text value)) := by
  rw [ask_eq, remember_of_read fresh reads]

/-- Asking for a text that cannot be read answers with the problem and leaves the cache as it
was. -/
theorem ask_of_fault (fresh : (kind.known cache)[text]? = none)
    (fails : kind.read text = .error problem) : kind.ask cache text = (.error problem, cache) := by
  rw [ask_eq, remember_of_fault fresh fails, withKnown_known]

/-- A call that fails leaves the cache as it was. -/
theorem ask_snd_of_fault (failed : (kind.ask cache text).1 = .error problem) :
    (kind.ask cache text).2 = cache := by
  cases found : (kind.known cache)[text]? with
  | some value => rw [ask_of_known found]
  | none =>
    cases reads : kind.read text with
    | error fault => rw [ask_of_fault found reads]
    | ok value =>
      rw [ask_of_read found reads] at failed
      cases failed

/-- The successful calls are those whose texts can be read. -/
theorem mem_successes_iff {call : Kind × String} :
    call ∈ successes calls ↔ call ∈ calls ∧ ∃ value, call.1.read call.2 = .ok value := by
  rw [successes, Finset.mem_filter, List.mem_toFinset]
  refine and_congr_right fun _ => ?_
  cases call.1.read call.2 <;> simp [Except.isOk, Except.toBool]

namespace Remembers

/-- The empty cache remembers that nothing was asked. -/
theorem initial : Remembers empty [] := by
  refine ⟨fun kind text value => ?_, rfl⟩
  cases kind <;> simp [Kind.known, empty]

/-- A cache that holds what was read answers as reading does. -/
theorem ask_fst (remembers : Remembers cache calls) (kind : Kind) (text : String) :
    (kind.ask cache text).1 = kind.read text := by
  cases found : (kind.known cache)[text]? with
  | some value =>
    rw [ask_of_known found, ((remembers.found_iff kind text value).mp found).2]
  | none =>
    cases reads : kind.read text with
    | error fault => rw [ask_of_fault found reads]
    | ok value => rw [ask_of_read found reads]

/-- A call that was made before, or that fails, adds nothing to what is to be remembered. -/
theorem idle (remembers : Remembers cache calls) {call : Kind × String}
    (nothingNew : ∀ value, call.1.read call.2 = .ok value → call ∈ calls) :
    Remembers cache (calls ++ [call]) := by
  have same (other : Kind × String) (value : other.1.Value)
      (reads : other.1.read other.2 = .ok value) : other ∈ calls ++ [call] ↔ other ∈ calls := by
    rw [List.mem_append, List.mem_singleton]
    constructor
    · rintro (earlier | rfl)
      · exact earlier
      · exact nothingNew value reads
    · exact Or.inl
  constructor
  · intro kind text value
    rw [remembers.found_iff]
    exact and_congr_left fun reads => (same (kind, text) value reads).symm
  · have sameSuccesses : successes (calls ++ [call]) = successes calls := by
      ext other
      rw [mem_successes_iff, mem_successes_iff]
      exact and_congr_left fun ⟨value, reads⟩ => same other value reads
    rw [sameSuccesses, remembers.size_eq]

/-- A text that is read for the first time as some kind is one more success. -/
theorem extend (remembers : Remembers cache calls) {value : kind.Value}
    (fresh : (kind.known cache)[text]? = none) (reads : kind.read text = .ok value) :
    Remembers (kind.withKnown cache ((kind.known cache).insert text value))
      (calls ++ [(kind, text)]) := by
  have notCalled : (kind, text) ∉ calls := by
    intro called
    rw [(remembers.found_iff kind text value).mpr ⟨called, reads⟩] at fresh
    cases fresh
  constructor
  · intro other word found
    rw [List.mem_append, List.mem_singleton]
    by_cases sameKind : other = kind
    · subst sameKind
      rw [known_withKnown, Std.HashMap.getElem?_insert]
      by_cases sameText : text = word
      · subst sameText
        simp [reads, eq_comm]
      · simp [sameText, Ne.symm sameText, remembers.found_iff]
    · rw [known_withKnown_of_ne sameKind, remembers.found_iff]
      simp [sameKind]
  · have notSuccess : (kind, text) ∉ successes calls := fun counted =>
      notCalled (mem_successes_iff.mp counted).1
    have oneMore : successes (calls ++ [(kind, text)]) = insert (kind, text) (successes calls) := by
      ext other
      rw [Finset.mem_insert, mem_successes_iff, mem_successes_iff, List.mem_append,
        List.mem_singleton]
      constructor
      · rintro ⟨earlier | rfl, success⟩
        · exact Or.inr ⟨earlier, success⟩
        · exact Or.inl rfl
      · rintro (rfl | ⟨earlier, success⟩)
        · exact ⟨Or.inr rfl, value, reads⟩
        · exact ⟨Or.inl earlier, success⟩
    have grown := size_withKnown cache kind ((kind.known cache).insert text value)
    have notKnown : text ∉ kind.known cache := by
      rw [Std.HashMap.mem_iff_isSome_getElem?, fresh]
      simp
    rw [Std.HashMap.size_insert, if_neg notKnown, remembers.size_eq] at grown
    rw [oneMore, Finset.card_insert_of_notMem notSuccess]
    omega

/-- Every call leaves a cache that holds what was read, that call included. -/
theorem step (remembers : Remembers cache calls) (call : Kind × String) :
    Remembers (call.1.ask cache call.2).2 (calls ++ [call]) := by
  cases found : (call.1.known cache)[call.2]? with
  | some value =>
    rw [ask_of_known found]
    exact remembers.idle fun _ _ => ((remembers.found_iff call.1 call.2 value).mp found).1
  | none =>
    cases reads : call.1.read call.2 with
    | error problem =>
      rw [ask_of_fault found reads]
      refine remembers.idle fun value isRead => ?_
      rw [reads] at isRead
      cases isRead
    | ok value =>
      rw [ask_of_read found reads]
      exact remembers.extend found reads

end Remembers

/-! ## Sequences of calls -/

/-- After any calls, the cache remembers exactly those that were successful. -/
theorem after_remembers (calls : List (Kind × String)) : Remembers (after calls) calls := by
  induction calls using List.reverseRecOn with
  | nil => exact Remembers.initial
  | append_singleton calls call inductionHypothesis =>
    rw [after, List.foldl_append]
    exact inductionHypothesis.step call

/-- After any sequence of calls, a call is answered as reading the text answers it and leaves the
cache as it was if it fails. The size is the number of different calls that succeeded. -/
theorem ask_after (calls : List (Kind × String)) :
    (∀ (kind : Kind) (text : String), (kind.ask (after calls) text).1 = kind.read text ∧
      ∀ problem, (kind.ask (after calls) text).1 = .error problem →
        (kind.ask (after calls) text).2 = after calls) ∧
    (after calls).size = (successes calls).card := by
  have remembers := after_remembers calls
  exact ⟨fun kind text => ⟨remembers.ask_fst kind text, fun _ => ask_snd_of_fault⟩,
    remembers.size_eq⟩

/-- One letter asked for in three ways, one of which fails, and a type in two spellings. -/
def letterCalls : List (Kind × String) :=
  [(.type, "I"), (.field, "I"), (.method, "I"), (.type, "I"), (.type, "int")]

/-- The letter is no method descriptor, however often it was read as a type. -/
theorem ask_after_letter :
    (Kind.field.ask (after letterCalls) "I").1 = .ok (.primitive .int) ∧
      (Kind.method.ask (after letterCalls) "I").1 = .error (.invalid "I") ∧
      (Kind.method.ask (after letterCalls) "I").2 = after letterCalls ∧
      (after letterCalls).size = 3 := by
  obtain ⟨answers, size⟩ := ask_after letterCalls
  have fails : (Kind.method.ask (after letterCalls) "I").1 = .error (.invalid "I") :=
    (answers .method "I").1
  exact ⟨(answers .field "I").1, fails, (answers .method "I").2 _ fails, size⟩

end ClassAtlas.DescriptorCache
