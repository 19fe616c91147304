import ClassAtlas.Proofs.LinkedClasses

/-!
# The nodes of records

Several passes of linking go over all records and change the node of each. In a pool that is in
order no two records declare one class, so that each pass changes the node of a record once. Then
the node in the graph is the one that this record alone makes, whatever the others are.
-/

namespace ClassAtlas

section Filling

variable {α ρ : Type} {rows : List ρ} {place : ρ → Nat} {change : ρ → α → α} {items : Array α}

/-- A pass over rows leaves the places of no row alone. -/
theorem getElem?_foldl_modify_of_forall_ne {other : Nat}
    (elsewhere : ∀ row ∈ rows, place row ≠ other) :
    (rows.foldl (fun filled row => filled.modify (place row) (change row)) items)[other]? =
      items[other]? := by
  induction rows generalizing items with
  | nil => rfl
  | cons row rest inductionHypothesis =>
    obtain ⟨notHere, notLater⟩ := List.forall_mem_cons.mp elsewhere
    rw [List.foldl_cons, inductionHypothesis notLater, Array.getElem?_modify, if_neg notHere]

/-- Where no two rows share a place, the entry at the place of a row is changed by that row. -/
theorem getElem?_foldl_modify_of_mem (distinct : (rows.map place).Nodup) {row : ρ}
    (listed : row ∈ rows) :
    (rows.foldl (fun filled row => filled.modify (place row) (change row)) items)[place row]? =
      items[place row]?.map (change row) := by
  induction rows generalizing items with
  | nil => simp at listed
  | cons first rest inductionHypothesis =>
    rw [List.map_cons, List.nodup_cons] at distinct
    obtain ⟨notLater, distinctRest⟩ := distinct
    rw [List.foldl_cons]
    rcases List.mem_cons.mp listed with rfl | later
    · have elsewhere : ∀ other ∈ rest, place other ≠ place row :=
        fun other inRest same => notLater (List.mem_map.mpr ⟨other, inRest, same⟩)
      rw [getElem?_foldl_modify_of_forall_ne elsewhere, Array.getElem?_modify, if_pos rfl]
    · have different : place first ≠ place row :=
        fun same => notLater (List.mem_map.mpr ⟨row, later, same.symm⟩)
      rw [inductionHypothesis distinctRest later, Array.getElem?_modify, if_neg different]

end Filling

namespace Link

variable {records : List TypedRecord} {missing : List String}

/-- No two records declare one class. -/
def Distinct (records : List TypedRecord) (missing : List String) : Prop :=
  ((rows records missing).map fun row => row.2.owner).Nodup

/-- The rows belong to the classes of the records in order. -/
theorem owners_eq : (rows records missing).map (fun row => row.2.owner) =
    records.map fun typed => (number records missing).id typed.types.this := by
  have all (table : ClassTable) (first : MemberId) (records : List TypedRecord) :
      (declareAll table first records).map (fun row => row.2.owner) =
        records.map fun typed => table.id typed.types.this := by
    induction records generalizing first with
    | nil => rfl
    | cons typed rest inductionHypothesis =>
      rw [declareAll, List.map_cons, List.map_cons, inductionHypothesis]
      rfl
  exact all _ _ _

/-- Where no two records declare one class, rows of one class are the same. -/
theorem Distinct.eq_of_owner_eq (distinct : Distinct records missing)
    {first second : TypedRecord × Declarations} (firstRow : first ∈ rows records missing)
    (secondRow : second ∈ rows records missing) (same : first.2.owner = second.2.owner) :
    first = second :=
  List.inj_on_of_nodup_map distinct firstRow secondRow same

section Row

variable (distinct : Distinct records missing) {typed : TypedRecord} {declarations : Declarations}
  (row : (typed, declarations) ∈ rows records missing)

include distinct row

/-- The class of a record is its stub with the declarations of the record. -/
theorem getElem?_declaredNodes_of_row :
    (declaredNodes (number records missing) (rows records missing))[declarations.owner]? =
      (number records missing).stubs[declarations.owner]?.map
        (ClassNode.declare (number records missing) typed declarations) :=
  getElem?_foldl_modify_of_mem distinct row

section Node

variable {node : ClassNode}
  (stands : (graph records missing).classes[declarations.owner]? = some node)

include stands

/-- A view of the node of a record sees what the record declares. -/
theorem graph_view_of_row {β : Type} (view : ClassNode → β)
    (settled : ∀ node : ClassNode, view node.settled = view node)
    (unseen : ∀ (node : ClassNode) (ancestors : List ClassId),
      view { node with ancestors } = view node) :
    ∃ stub : ClassNode,
      view node = view (stub.declare (number records missing) typed declarations) := by
  have seen := @graph_view_declared records missing _ view settled unseen declarations.owner
  rw [getElem?_declaredNodes_of_row distinct row, stands, Option.map_map, Option.map_some, eq_comm,
    Option.map_eq_some_iff] at seen
  obtain ⟨stub, _, same⟩ := seen
  exact ⟨stub, same.symm⟩

/-- The node of a record names what the bodies of the record refer to. -/
theorem graph_typeReferences_of_row :
    node.typeReferences =
      (bodies typed declarations).flatMap (Body.typeReferences (number records missing)) := by
  rw [graph_classes, withTypeReferences, getElem?_foldl_modify_of_mem distinct row,
    Option.map_eq_some_iff] at stands
  obtain ⟨_, _, rfl⟩ := stands
  rfl

end Node

end Row

end Link

namespace ClassPool

/-- A pool that is in order declares no class twice. -/
theorem Filed.distinct {pool : ClassPool} (filed : pool.Filed) :
    Link.Distinct pool.typedRecords pool.missingNames := by
  have names : (pool.typedRecords.map fun typed => typed.entry.record.name).Nodup := by
    have kept : (pool.typedRecords.map fun typed => typed.entry).Sublist pool.entries := by
      rw [typedRecords, typings]
      induction pool.entries with
      | nil => exact .slnil
      | cons entry rest inductionHypothesis =>
        rw [List.map_cons, List.filterMap_cons]
        cases RecordTypes.ofRecord entry.record with
        | ok types => exact inductionHypothesis.cons_cons entry
        | error problem => exact inductionHypothesis.cons entry
    have sublist := kept.map fun entry => entry.record.name
    rw [List.map_map] at sublist
    exact filed.names_nodup.sublist sublist
  rw [Link.Distinct, Link.owners_eq, List.Nodup, List.pairwise_map]
  rw [List.Nodup, List.pairwise_map] at names
  refine names.imp_of_mem fun {first second} firstTyped secondTyped different same => different ?_
  have firstName := graph_name_of_typed firstTyped
  rw [same, graph_name_of_typed secondTyped, (filed.this_eq firstTyped).2,
    (filed.this_eq secondTyped).2] at firstName
  exact (Option.some.inj firstName).symm

end ClassPool

end ClassAtlas
