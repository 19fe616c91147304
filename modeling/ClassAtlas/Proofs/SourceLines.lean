import ClassAtlas.ClassFile.LineTable

/-!
# The source line of an offset

Line entries may be given in any order. Of the entries that start at or before an offset those
with the greatest start count, and of these the greatest line. A line table keeps its entries
sorted and looks for the last one that starts early enough, which comes to the same.
-/

namespace ClassAtlas.ClassFile

/-- The greatest line of the entries with the greatest start, or zero if there are none. -/
def latestLine (entries : List LineEntry) : Nat :=
  match (entries.map LineEntry.start).max? with
  | none => 0
  | some latest =>
    ((entries.filter fun entry => entry.start = latest).map LineEntry.line).max?.getD 0

/-- The line of an offset by entries in any order. -/
def lineOf (entries : List LineEntry) (offset : Nat) : Nat :=
  latestLine (entries.filter fun entry => entry.start ≤ offset)

/-- The least line of some entries. -/
def leastLine (entries : List LineEntry) : Option Nat := (entries.map LineEntry.line).min?

/-- In a sorted list, what a property holds of up to some place is all that it holds of. -/
theorem takeWhile_eq_filter {α : Type} {le : α → α → Prop} {test : α → Bool} {sorted : List α}
    (ordered : sorted.Pairwise le)
    (downward : ∀ lower upper, le lower upper → test upper = true → test lower = true) :
    sorted.takeWhile test = sorted.filter test := by
  induction ordered with
  | nil => rfl
  | @cons first rest least _ inductionHypothesis =>
    by_cases holds : test first = true
    · rw [List.takeWhile_cons_of_pos holds, List.filter_cons_of_pos holds, inductionHypothesis]
    · rw [List.takeWhile_cons_of_neg holds, List.filter_cons_of_neg holds, eq_comm,
        List.filter_eq_nil_iff]
      exact fun other isLater again => holds (downward first other (least other isLater) again)

namespace LineEntry

/-- Line entries are sorted by offset and then by line. -/
theorem le_iff {left right : LineEntry} : LineEntry.le left right = true ↔
    left.start < right.start ∨ left.start = right.start ∧ left.line ≤ right.line := by
  simp [LineEntry.le]

/-- Sorted line entries are in order. -/
theorem pairwise_mergeSort_le (entries : List LineEntry) :
    (entries.mergeSort LineEntry.le).Pairwise fun left right => LineEntry.le left right = true := by
  refine List.pairwise_mergeSort ?_ ?_ entries
  · intro first second third
    simp only [le_iff]
    omega
  · intro left right
    simp only [Bool.or_eq_true, le_iff]
    omega

end LineEntry

/-- An entry after which no other comes gives the line. -/
theorem latestLine_eq {entries : List LineEntry} {entry : LineEntry} (present : entry ∈ entries)
    (greatest : ∀ other ∈ entries, other.le entry = true) : latestLine entries = entry.line := by
  simp only [LineEntry.le_iff] at greatest
  have latest : (entries.map LineEntry.start).max? = some entry.start := by
    refine List.max?_eq_some_iff.mpr ⟨List.mem_map_of_mem present, ?_⟩
    simp only [List.mem_map, forall_exists_index, and_imp, forall_apply_eq_imp_iff₂]
    intro other isOther
    have := greatest other isOther
    omega
  have line : ((entries.filter fun other => other.start = entry.start).map LineEntry.line).max? =
      some entry.line := by
    refine List.max?_eq_some_iff.mpr ⟨List.mem_map_of_mem (by simp [present]), ?_⟩
    simp only [List.mem_map, List.mem_filter, decide_eq_true_eq, forall_exists_index, and_imp]
    rintro _ other isOther sameStart rfl
    have := greatest other isOther
    omega
  rw [latestLine, latest]
  simp only [line, Option.getD_some]

namespace LineTable

/-- The entries that count for an offset, sorted. -/
theorem takeWhile_ofEntries (entries : List LineEntry) (offset : Nat) :
    (ofEntries entries).entries.takeWhile (fun entry => entry.start ≤ offset) =
      (entries.mergeSort LineEntry.le).filter fun entry => entry.start ≤ offset := by
  refine takeWhile_eq_filter (LineEntry.pairwise_mergeSort_le entries) ?_
  intro lower upper ordered
  simp only [LineEntry.le_iff] at ordered
  simp only [decide_eq_true_eq]
  omega

/-- The line that a table gives an offset. -/
theorem lineAt_ofEntries (entries : List LineEntry) (offset : Nat) :
    (ofEntries entries).lineAt offset = lineOf entries offset := by
  have sorted := (LineEntry.pairwise_mergeSort_le entries).filter fun entry => entry.start ≤ offset
  have same : ((entries.mergeSort LineEntry.le).filter fun entry => entry.start ≤ offset).Perm
      (entries.filter fun entry => entry.start ≤ offset) :=
    (List.mergeSort_perm entries LineEntry.le).filter _
  rw [lineAt, takeWhile_ofEntries, lineOf]
  split
  · rename_i last isLast
    obtain ⟨front, split⟩ := List.getLast?_eq_some_iff.mp isLast
    rw [split] at sorted same
    refine (latestLine_eq (same.mem_iff.mp (by simp)) fun other isOther => ?_).symm
    -- Every other entry stands before the last one of the sorted list.
    rcases List.mem_append.mp (same.mem_iff.mpr isOther) with before | isLast
    · exact (List.pairwise_append.mp sorted).2.2 other before last List.mem_cons_self
    · rw [List.mem_singleton.mp isLast, LineEntry.le_iff]
      omega
  · rename_i noLast
    rw [List.getLast?_eq_none_iff.mp noLast] at same
    rw [← same.nil_eq]
    rfl

/-- The least line of a table. -/
theorem firstLine_ofEntries (entries : List LineEntry) :
    (ofEntries entries).firstLine = leastLine entries := by
  rw [firstLine, ofEntries, leastLine]
  have same := (List.mergeSort_perm entries LineEntry.le).map LineEntry.line
  refine Option.ext fun line => ?_
  simp only [List.min?_eq_some_iff, same.mem_iff]

end LineTable

end ClassAtlas.ClassFile
