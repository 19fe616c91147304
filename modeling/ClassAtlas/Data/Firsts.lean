/-!
# First elements

Of the elements of a list that share a key, only the first is kept; the order stays.
-/

namespace ClassAtlas

variable {α κ : Type} [DecidableEq κ]

/-- The first element of each key, in order. -/
def firstsBy (key : α → κ) : List α → List α
  | [] => []
  | first :: rest => first :: (firstsBy key rest).filter fun other => key other ≠ key first

/-- The first values are kept in their order, and no others are added. -/
theorem firstsBy_sublist (key : α → κ) (values : List α) :
    List.Sublist (firstsBy key values) values := by
  induction values with
  | nil => exact .slnil
  | cons first rest shorter => exact (List.filter_sublist.trans shorter).cons_cons first

/-- Every key is kept. -/
theorem mem_map_firstsBy (key : α → κ) (values : List α) (wanted : κ) :
    wanted ∈ (firstsBy key values).map key ↔ wanted ∈ values.map key := by
  induction values with
  | nil => simp [firstsBy]
  | cons first rest kept =>
    by_cases same : wanted = key first
    · simp [firstsBy, same]
    · have others : (∃ value ∈ firstsBy key rest, key value ≠ key first ∧ key value = wanted) ↔
          ∃ value ∈ rest, key value = wanted := by
        rw [← List.mem_map, ← kept, List.mem_map]
        exact exists_congr fun value =>
          and_congr_right fun _ => ⟨fun both => both.2, fun found => ⟨found ▸ same, found⟩⟩
      simpa [firstsBy, same, and_assoc] using others

/-- No key is kept twice. -/
theorem nodup_map_firstsBy (key : α → κ) (values : List α) :
    ((firstsBy key values).map key).Nodup := by
  induction values with
  | nil => simp [firstsBy]
  | cons first rest distinct =>
    refine List.nodup_cons.mpr ⟨?_, distinct.sublist (List.filter_sublist.map key)⟩
    simp

end ClassAtlas
