/-!
# Buckets

Values with a number are sorted into buckets by that number, keeping their order within
each bucket. Numbers beyond the last bucket are dropped.
-/

namespace ClassAtlas

/-- The values of each number below `count`, in order. -/
def buckets {α : Type} (count : Nat) (entries : List (Nat × α)) : Array (List α) :=
  entries.foldr (fun entry filled => filled.modify entry.1 (entry.2 :: ·))
    (Array.replicate count [])

/-- The number of buckets does not depend on the entries. -/
@[simp]
theorem size_buckets {α : Type} (count : Nat) (entries : List (Nat × α)) :
    (buckets count entries).size = count := by
  induction entries with
  | nil => simp [buckets]
  | cons entry rest inductionHypothesis =>
    simpa [buckets] using inductionHypothesis

/-- A bucket holds the values of its number in order. -/
theorem getElem?_buckets {α : Type} (count number : Nat) (entries : List (Nat × α))
    (inside : number < count) :
    (buckets count entries)[number]? =
      some ((entries.filter fun entry => entry.1 = number).map Prod.snd) := by
  induction entries with
  | nil => simp [buckets, inside]
  | cons entry rest inductionHypothesis =>
    have unfolded : buckets count (entry :: rest) =
        (buckets count rest).modify entry.1 (entry.2 :: ·) := rfl
    rw [unfolded, Array.getElem?_modify, inductionHypothesis]
    by_cases same : entry.1 = number <;> simp [same]

/-- What stands in a bucket is an entry with its number. -/
theorem mem_of_mem_bucket {α : Type} {count number : Nat} {entries : List (Nat × α)} {value : α}
    (listed : value ∈ (buckets count entries)[number]?.getD []) : (number, value) ∈ entries := by
  by_cases inside : number < count
  · rw [getElem?_buckets count number entries inside, Option.getD_some, List.mem_map] at listed
    obtain ⟨entry, selected, rfl⟩ := listed
    obtain ⟨present, same⟩ := List.mem_filter.mp selected
    exact (decide_eq_true_iff.mp same) ▸ present
  · rw [Array.getElem?_eq_none (by simpa using inside)] at listed
    simp at listed

end ClassAtlas
