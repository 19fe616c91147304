import ClassAtlas.Graph.Link
import ClassAtlas.Proofs.Declarations
import ClassAtlas.Proofs.Numbering
import ClassAtlas.Proofs.Typing

/-!
# The passes of linking

Linking fills an array of nodes in passes, each of which changes some fields of each node or
of the nodes of declared classes. A pass neither adds nor moves a node. So a property of
nodes at their places holds at the end if it holds of the stubs and every pass keeps it, and
the fields that a pass does not set are those of the pass before.

The last three passes set nested classes, enclosing methods and type references. All else
in a linked graph is what its nodes had when their ancestors were computed, which is the
state that accesses are resolved in.
-/

namespace ClassAtlas

/-- A property of the entries of an array at their places. -/
def Throughout {α : Type} (items : Array α) (holds : Nat → α → Prop) : Prop :=
  ∀ (place : Nat) (value : α), items[place]? = some value → holds place value

section Throughout

variable {α β : Type} {items : Array α} {holds : Nat → α → Prop}

/-- What holds of every item holds of the changed items, if the change keeps it. -/
theorem Throughout.map {after : Nat → β → Prop} (each : Throughout items holds) (change : α → β)
    (keeps : ∀ place value, items[place]? = some value → holds place value →
      after place (change value)) :
    Throughout (items.map change) after := by
  intro place value found
  rw [Array.getElem?_map, Option.map_eq_some_iff] at found
  obtain ⟨before, stands, rfl⟩ := found
  exact keeps place before stands (each place before stands)

/-- What holds of every item still holds when one of them is changed, if the change keeps it. -/
theorem Throughout.modify (each : Throughout items holds) (place : Nat) (change : α → α)
    (keeps : ∀ value, holds place value → holds place (change value)) :
    Throughout (items.modify place change) holds := by
  intro other value found
  rw [Array.getElem?_modify] at found
  by_cases here : place = other
  · subst here
    rw [if_pos rfl, Option.map_eq_some_iff] at found
    obtain ⟨before, stands, rfl⟩ := found
    exact keeps before (each place before stands)
  · rw [if_neg here] at found
    exact each other value found

/-- A pass over rows keeps a property that the step of each row keeps. -/
theorem Throughout.foldl {ρ : Type} {rows : List ρ} {step : Array α → ρ → Array α}
    (each : Throughout items holds)
    (keeps : ∀ row ∈ rows, ∀ filled, Throughout filled holds → Throughout (step filled row) holds) :
    Throughout (rows.foldl step items) holds := by
  refine List.foldlRecOn (motive := fun filled => Throughout filled holds) _ _ each ?_
  exact fun filled kept row listed => keeps row listed filled kept

/-- A pass over rows is not seen by a view that does not see the step of any row. -/
theorem map_foldl_of_view {ρ : Type} {rows : List ρ} {step : Array α → ρ → Array α}
    (view : α → β) (items : Array α)
    (unseen : ∀ filled row, (step filled row).map view = filled.map view) :
    (rows.foldl step items).map view = items.map view := by
  refine List.foldlRecOn (motive := fun filled : Array α => filled.map view = items.map view)
    _ _ rfl ?_
  exact fun filled same row _ => (unseen filled row).trans same

/-- What a view shows at a place is the view of an entry there. -/
theorem exists_getElem?_of_map {view : α → β} {values : Array β} (shown : items.map view = values)
    (place : Nat) (inside : place < values.size) :
    ∃ item, items[place]? = some item ∧ view item = values[place] := by
  subst shown
  have inItems : place < items.size := by simpa using inside
  exact ⟨items[place], Array.getElem?_eq_getElem inItems, by simp⟩

/-- Changing one entry is not seen by a view that does not see the change. -/
theorem map_modify_of_view (items : Array α) (view : α → β) (place : Nat) (change : α → α)
    (unseen : ∀ value, view (change value) = view value) :
    (items.modify place change).map view = items.map view := by
  apply Array.ext_getElem?
  intro other
  simp only [Array.getElem?_map, Array.getElem?_modify]
  by_cases here : place = other <;> cases items[other]? <;> simp [here, unseen]

end Throughout

/-- What a field mentions its record mentions. -/
theorem RecordTypes.mem_mentions_of_field {types : RecordTypes} {field : FieldTypes}
    (isField : field ∈ types.fields) {type : TypeName} (named : type ∈ field.mentions) :
    type ∈ types.mentions := by
  simp only [mentions, List.mem_append, List.mem_flatMap]
  exact Or.inl (Or.inr ⟨field, isField, named⟩)

/-- What a method mentions its record mentions. -/
theorem RecordTypes.mem_mentions_of_method {types : RecordTypes} {method : MethodTypes}
    (isMethod : method ∈ types.methods) {type : TypeName} (named : type ∈ method.mentions) :
    type ∈ types.mentions := by
  simp only [mentions, List.mem_append, List.mem_flatMap]
  exact Or.inr ⟨method, isMethod, named⟩

/-- A node without what is set after its ancestors are computed. -/
def ClassNode.settled (node : ClassNode) : ClassNode :=
  { node with nestedClasses := [], enclosingMethod := none, typeReferences := [] }

namespace Link

variable (records : List TypedRecord) (missing : List String)

/-- The records with their declarations, numbered from zero. -/
def rows : List (TypedRecord × Declarations) :=
  declareAll (number records missing) 0 records

/-- All members before their accesses are known. -/
def allMembers : Array Member := (declaredMembers (rows records missing)).toArray

/-- All bodies in order. -/
def allBodies : List Body :=
  (rows records missing).flatMap fun (typed, declarations) => bodies typed declarations

/-- The nodes when their ancestors have been computed. -/
def nodes : Array ClassNode :=
  withAncestors (declaredNodes (number records missing) (rows records missing))

/-- The classes of a graph are the numbered nodes after three more passes. -/
theorem graph_classes : (graph records missing).classes =
    withTypeReferences (number records missing) (rows records missing)
      (withEnclosingMethods (allMembers records missing) (rows records missing)
        (withNestedClasses (nodes records missing))) := rfl

/-- The accesses of a graph are the edges of all bodies. -/
theorem graph_accesses : (graph records missing).accesses =
    (edges (number records missing) (nodes records missing) (allMembers records missing)
      (allBodies records missing)).toArray := rfl

/-- The members of a graph are those declared, with the accesses that they make. -/
theorem graph_members : (graph records missing).members =
    withAccesses (allMembers records missing)
      (edges (number records missing) (nodes records missing) (allMembers records missing)
        (allBodies records missing)) := rfl

/-- Numbering ends in a sound table. -/
theorem number_sound : (number records missing).Sound :=
  ClassTable.internAll_sound
    (ClassTable.internAll_sound (ClassTable.internAll_sound ClassTable.sound_empty _) _) _

/-- The class of a record and all types it mentions are numbered with all their parts. -/
theorem number_knows {typed : TypedRecord} (present : typed ∈ records) :
    ∀ type ∈ typed.types.this :: typed.types.mentions, (number records missing).Knows type := by
  intro type listed
  rcases List.mem_cons.mp listed with rfl | mentioned
  · have declared : typed.types.this ∈ records.map fun other => other.types.this :=
      List.mem_map.mpr ⟨typed, present, rfl⟩
    exact ((ClassTable.internAll_knows _ _ _ declared).mono (ClassTable.internAll_grows _ _)).mono
      (ClassTable.internAll_grows _ _)
  · exact ClassTable.internAll_knows _ _ _ (List.mem_flatMap.mpr ⟨typed, present, mentioned⟩)

/-- So are the types that a field of the record mentions. -/
theorem number_knows_field {typed : TypedRecord} (present : typed ∈ records) {field : FieldTypes}
    (isField : field ∈ typed.types.fields) :
    ∀ type ∈ field.mentions, (number records missing).Knows type :=
  fun type named => number_knows records missing present type
    (List.mem_cons_of_mem _ (RecordTypes.mem_mentions_of_field isField named))

/-- So are the types that a method of the record and its body mention. -/
theorem number_knows_method {typed : TypedRecord} (present : typed ∈ records)
    {method : MethodTypes} (isMethod : method ∈ typed.types.methods) :
    ∀ type ∈ method.mentions, (number records missing).Knows type :=
  fun type named => number_knows records missing present type
    (List.mem_cons_of_mem _ (RecordTypes.mem_mentions_of_method isMethod named))

variable {records missing}

/-- A row belongs to a record of the list, and its declarations are numbered from some
number on. -/
theorem mem_rows {typed : TypedRecord} {declarations : Declarations}
    (listed : (typed, declarations) ∈ rows records missing) :
    typed ∈ records ∧ ∃ start, declarations = .ofTyped (number records missing) start typed :=
  mem_declareAll listed

/-- The members of a row are found among all members under their numbers. -/
theorem getElem?_allMembers_of_row {typed : TypedRecord} {declarations : Declarations}
    (listed : (typed, declarations) ∈ rows records missing) {member : Member}
    (declared : member ∈ declarations.members) :
    (allMembers records missing)[member.id]? = some member := by
  have present : member ∈ declaredMembers (rows records missing) :=
    List.mem_flatMap.mpr ⟨(typed, declarations), listed, declared⟩
  rw [allMembers, List.getElem?_toArray]
  exact getElem?_declareAll_of_mem present

/-- Members stand at their own numbers. -/
theorem id_of_getElem?_allMembers {id : MemberId} {member : Member}
    (stands : (allMembers records missing)[id]? = some member) : member.id = id := by
  rw [allMembers, List.getElem?_toArray] at stands
  exact id_of_getElem?_declareAll stands

/-- The numbers of members are places among them. -/
theorem id_lt_size_allMembers {id : MemberId} {member : Member}
    (stands : (allMembers records missing)[id]? = some member) :
    member.id < (allMembers records missing).size := by
  rw [id_of_getElem?_allMembers stands]
  exact (Array.getElem?_eq_some_iff.mp stands).1

/-- A member that stands among all members is declared by the record of some row. -/
theorem exists_row_of_getElem?_allMembers {id : MemberId} {member : Member}
    (stands : (allMembers records missing)[id]? = some member) :
    ∃ typed declarations, (typed, declarations) ∈ rows records missing ∧
      member ∈ declarations.members := by
  rw [allMembers, List.getElem?_toArray] at stands
  obtain ⟨⟨typed, declarations⟩, listed, declared⟩ :=
    List.mem_flatMap.mp (List.mem_of_getElem? stands)
  exact ⟨typed, declarations, listed, declared⟩

/-- The nodes are those of the numbered types in order. -/
theorem declaredNodes_types (table : ClassTable) (declared : List (TypedRecord × Declarations)) :
    (declaredNodes table declared).map ClassNode.type = table.types := by
  have ofStubs : table.stubs.map ClassNode.type = table.types := by
    apply Array.ext_getElem?
    intro id
    simp [ClassTable.stubs, ClassTable.stub, Function.comp_def]
  refine (map_foldl_of_view ClassNode.type table.stubs ?_).trans ofStubs
  rintro filled ⟨typed, declarations⟩
  exact map_modify_of_view filled _ _ _ fun _ => rfl

/-- There is a node for every numbered type. -/
theorem size_declaredNodes (table : ClassTable) (declared : List (TypedRecord × Declarations)) :
    (declaredNodes table declared).size = table.types.size := by
  rw [← declaredNodes_types table declared, Array.size_map]

/-- What holds of stubs and is kept where a record is declared holds of all nodes when the
records are declared. -/
theorem declaredNodes_throughout {holds : ClassId → ClassNode → Prop}
    (ofStub : ∀ id type, (number records missing).types[id]? = some type →
      holds id ((number records missing).stub id type))
    (ofDeclare : ∀ typed declarations, (typed, declarations) ∈ rows records missing →
      ∀ node, holds declarations.owner node →
        holds declarations.owner (node.declare (number records missing) typed declarations)) :
    Throughout (declaredNodes (number records missing) (rows records missing)) holds := by
  have stubs : Throughout (number records missing).stubs holds := by
    intro id node stands
    rw [ClassTable.stubs, Array.getElem?_mapIdx, Option.map_eq_some_iff] at stands
    obtain ⟨type, atId, rfl⟩ := stands
    exact ofStub id type atId
  refine Throughout.foldl stubs ?_
  rintro ⟨typed, declarations⟩ listed filled kept
  exact Throughout.modify kept _ _ (ofDeclare typed declarations listed)

/-- There is still a node for every numbered type when ancestors are computed. -/
@[simp]
theorem size_nodes : (nodes records missing).size = (number records missing).types.size := by
  simp [nodes, withAncestors, size_declaredNodes]

/-- Computing ancestors is not seen by a view that does not see them. -/
theorem nodes_view {β : Type} (view : ClassNode → β)
    (unseen : ∀ (node : ClassNode) (ancestors : List ClassId),
      view { node with ancestors } = view node) (id : ClassId) :
    (nodes records missing)[id]?.map view =
      (declaredNodes (number records missing) (rows records missing))[id]?.map view := by
  simp only [nodes, withAncestors, Array.getElem?_map, Option.map_map, Function.comp_def, unseen]

/-- Filling in enclosing methods is not seen by a view that does not see them. -/
theorem withEnclosingMethods_view {β : Type} (view : ClassNode → β) (members : Array Member)
    (declared : List (TypedRecord × Declarations)) (classes : Array ClassNode)
    (unseen : ∀ (node : ClassNode) (enclosingMethod : Option MethodRef),
      view { node with enclosingMethod } = view node) :
    (withEnclosingMethods members declared classes).map view = classes.map view := by
  refine map_foldl_of_view view _ ?_
  rintro filled ⟨typed, declarations⟩
  dsimp only
  split
  · exact map_modify_of_view filled _ _ _ fun node => unseen node _
  · rfl

/-- Filling in type references is not seen by a view that does not see them. -/
theorem withTypeReferences_view {β : Type} (view : ClassNode → β) (table : ClassTable)
    (declared : List (TypedRecord × Declarations)) (classes : Array ClassNode)
    (unseen : ∀ (node : ClassNode) (typeReferences : List TypeReference),
      view { node with typeReferences } = view node) :
    (withTypeReferences table declared classes).map view = classes.map view := by
  refine map_foldl_of_view view _ ?_
  rintro filled ⟨typed, declarations⟩
  exact map_modify_of_view filled _ _ _ fun node => unseen node _

/-- The passes after the ancestors leave the settled part of every node. -/
theorem graph_classes_settled : (graph records missing).classes.map ClassNode.settled =
    (nodes records missing).map ClassNode.settled := by
  rw [graph_classes, withTypeReferences_view _ _ _ _ fun _ _ => rfl,
    withEnclosingMethods_view _ _ _ _ fun _ _ => rfl, withNestedClasses, Array.map_map]
  rfl

/-- A view of the settled part reads a linked graph as it reads the nodes. -/
theorem graph_view {β : Type} (view : ClassNode → β)
    (settled : ∀ node : ClassNode, view node.settled = view node) (id : ClassId) :
    (graph records missing).classes[id]?.map view = (nodes records missing)[id]?.map view := by
  have same := congrArg (·[id]?.map view) (@graph_classes_settled records missing)
  simpa only [Array.getElem?_map, Option.map_map, Function.comp_def, settled] using same

/-- A view that does not see ancestors either reads it as it reads the declared nodes. -/
theorem graph_view_declared {β : Type} (view : ClassNode → β)
    (settled : ∀ node : ClassNode, view node.settled = view node)
    (unseen : ∀ (node : ClassNode) (ancestors : List ClassId),
      view { node with ancestors } = view node) (id : ClassId) :
    (graph records missing).classes[id]?.map view =
      (declaredNodes (number records missing) (rows records missing))[id]?.map view :=
  (graph_view view settled id).trans (nodes_view view unseen id)

/-- The classes of a linked graph are the numbered types in order. -/
theorem graph_types (id : ClassId) :
    (graph records missing).classes[id]?.map ClassNode.type =
      (number records missing).types[id]? := by
  rw [graph_view_declared ClassNode.type (fun _ => rfl) (fun _ _ => rfl), ← Array.getElem?_map,
    declaredNodes_types]

/-- The graph has a class for every numbered type. -/
@[simp]
theorem size_graph_classes :
    (graph records missing).classes.size = (number records missing).types.size := by
  have same := congrArg Array.size (@graph_classes_settled records missing)
  simpa using same

/-- An edge is that of an access in some body. -/
theorem exists_body_of_edge {table : ClassTable} {classes : Array ClassNode}
    {members : Array Member} {all : List Body} {id : AccessId} {access : AccessEdge}
    (found : (edges table classes members all)[id]? = some access) :
    ∃ body ∈ all, ∃ made owner, (made, owner) ∈ body.accesses table ∧
      access = edge classes members id body.origin made owner := by
  simp only [edges, List.getElem?_map, List.getElem?_zipIdx, Option.map_eq_some_iff,
    Nat.zero_add] at found
  obtain ⟨_, ⟨⟨origin, made, owner⟩, pending, rfl⟩, rfl⟩ := found
  obtain ⟨body, present, listed⟩ := List.mem_flatMap.mp (List.mem_of_getElem? pending)
  obtain ⟨⟨_, _⟩, accessed, same⟩ := List.mem_map.mp listed
  cases same
  exact ⟨body, present, _, _, accessed, rfl⟩

/-- Accesses stand at their own numbers. -/
theorem id_of_getElem?_edges {table : ClassTable} {classes : Array ClassNode}
    {members : Array Member} {all : List Body} {id : AccessId} {access : AccessEdge}
    (found : (edges table classes members all)[id]? = some access) : access.id = id := by
  obtain ⟨_, _, _, _, _, rfl⟩ := exists_body_of_edge found
  rfl

/-- A body belongs to a method that some record declares. -/
theorem exists_method_of_body {body : Body} (listed : body ∈ allBodies records missing) :
    ∃ typed declarations, (typed, declarations) ∈ rows records missing ∧
      ∃ member ∈ declarations.members, body.origin = member.id := by
  obtain ⟨⟨typed, declarations⟩, row, inRow⟩ := List.mem_flatMap.mp listed
  obtain ⟨⟨_, member⟩, paired, rfl⟩ := List.mem_map.mp inRow
  exact ⟨typed, declarations, row, member,
    List.mem_append_right _ (List.of_mem_zip paired).2, rfl⟩

end Link

namespace ClassPool

/-- The records of a pool whose types could be read. -/
def typedRecords (pool : ClassPool) : List TypedRecord :=
  pool.typings.filterMap Link.typed?

/-- The graph of a pool is that of its typed records and missing names. -/
theorem link_graph (pool : ClassPool) :
    pool.link.1 = Link.graph pool.typedRecords pool.missingNames := rfl

/-- The typed records of a pool are readable. -/
theorem readable_of_mem_typedRecords {pool : ClassPool} :
    ∀ typed ∈ pool.typedRecords, typed.types.Readable := by
  intro typed listed
  obtain ⟨_, present, kept⟩ := List.mem_filterMap.mp listed
  obtain ⟨entry, _, rfl⟩ := List.mem_map.mp present
  cases read : RecordTypes.ofRecord entry.record with
  | error problem => simp [Link.typed?, read] at kept
  | ok types =>
    simp only [Link.typed?, read, Option.some.injEq] at kept
    exact kept ▸ RecordTypes.readable_of_read read

end ClassPool

end ClassAtlas
