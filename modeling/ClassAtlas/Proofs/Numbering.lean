import ClassAtlas.Graph.ClassTable

/-!
# Numbers of classes

A table that grew by interning is sound: its index gives a name exactly the number under
which a type of that name stands, so that no name has two numbers, and every array stands
after its component and beside the root class. Growth never renumbers a name, and interning
a type whose parts all have numbers changes nothing.

Types are told apart by name only. Nothing here asks whether two types with one name are
the same type; the readers of names settle that elsewhere.
-/

namespace ClassAtlas

/-- The types that get a number when a type is interned, in order. -/
def TypeName.numbered : TypeName → List TypeName
  | primitive _ => []
  | object name => [object name]
  | array component => component.numbered ++ [rootClass, array component]

/-- A type that is not primitive gets a number itself. -/
theorem TypeName.mem_numbered_self {type : TypeName} (reference : type.isPrimitive = false) :
    type ∈ type.numbered := by
  cases type with
  | primitive kind => simp [isPrimitive] at reference
  | object name => simp [numbered]
  | array component => simp [numbered]

namespace ClassTable

/-- The index and the types agree, and arrays stand after what they are made of. -/
structure Sound (table : ClassTable) : Prop where
  index_iff : ∀ (name : String) (id : ClassId), table.index[name]? = some id ↔
    ∃ type : TypeName, table.types[id]? = some type ∧ type.name = name
  arrays : ∀ (id : ClassId) (component : TypeName), table.types[id]? = some (.array component) →
    TypeName.rootClass.name ∈ table.index ∧
      (component.isPrimitive = false → ∃ earlier < id, table.index[component.name]? = some earlier)

/-- Names keep their numbers. -/
def Grows (before after : ClassTable) : Prop :=
  ∀ (name : String) (id : ClassId), before.index[name]? = some id → after.index[name]? = some id

/-- Every part of a type that gets a number has one. -/
def Knows (table : ClassTable) (type : TypeName) : Prop :=
  ∀ part ∈ type.numbered, part.name ∈ table.index

variable {table : ClassTable}

/-- A table has all the numbers that it has. -/
theorem Grows.refl (table : ClassTable) : Grows table table := fun _ _ found => found

/-- Numbers that are kept twice are kept. -/
theorem Grows.trans {first second third : ClassTable} (earlier : Grows first second)
    (later : Grows second third) : Grows first third :=
  fun name id found => later name id (earlier name id found)

/-- A name that has a number keeps having one. -/
theorem Grows.mem {before after : ClassTable} (grows : Grows before after) {name : String}
    (known : name ∈ before.index) : name ∈ after.index := by
  rw [Std.TreeMap.mem_iff_isSome_getElem?, Option.isSome_iff_exists] at known ⊢
  obtain ⟨id, found⟩ := known
  exact ⟨id, grows name id found⟩

/-- What is known stays known while a table grows. -/
theorem Knows.mono {before after : ClassTable} {type : TypeName} (known : Knows before type)
    (grows : Grows before after) : Knows after type :=
  fun part listed => grows.mem (known part listed)

/-- A known name is left as it is. -/
theorem add_of_mem {type : TypeName} (known : type.name ∈ table.index) :
    table.add type = table := by
  simp [add, known]

/-- A new name gets the next number. -/
theorem add_of_not_mem {type : TypeName} (fresh : type.name ∉ table.index) :
    table.add type =
      { types := table.types.push type
        index := table.index.insert type.name table.types.size } := by
  simp [add, fresh]

/-- A type that was added is in the index. -/
theorem mem_add (table : ClassTable) (type : TypeName) : type.name ∈ (table.add type).index := by
  by_cases known : type.name ∈ table.index
  · rw [add_of_mem known]
    exact known
  · simp [add_of_not_mem known]

/-- Adding a type keeps all numbers. -/
theorem add_grows (table : ClassTable) (type : TypeName) : Grows table (table.add type) := by
  by_cases known : type.name ∈ table.index
  · rw [add_of_mem known]
    exact .refl table
  · intro name id found
    have different : type.name ≠ name := by
      rintro rfl
      exact known (Std.TreeMap.mem_iff_isSome_getElem?.mpr (by simp [found]))
    simp [add_of_not_mem known, Std.TreeMap.getElem?_insert, different, found]

/-- Numbers lie below the size, so a name in the index leads to a type. -/
theorem Sound.lt_size (sound : Sound table) {name : String} {id : ClassId}
    (found : table.index[name]? = some id) : id < table.types.size := by
  obtain ⟨type, stands, _⟩ := (sound.index_iff name id).mp found
  exact (Array.getElem?_eq_some_iff.mp stands).1

/-- No two numbers share a name. -/
theorem Sound.injective (sound : Sound table) {left right : ClassId} {first second : TypeName}
    (atLeft : table.types[left]? = some first) (atRight : table.types[right]? = some second)
    (same : first.name = second.name) : left = right := by
  have leftFound := (sound.index_iff first.name left).mpr ⟨first, atLeft, rfl⟩
  have rightFound := (sound.index_iff first.name right).mpr ⟨second, atRight, same.symm⟩
  exact Option.some.inj (leftFound.symm.trans rightFound)

/-- The table before anything was added is sound. -/
theorem sound_empty : Sound {} := by
  constructor <;> simp

/-- Adding a type keeps a table sound, provided that the parts of an array come first. -/
theorem add_sound (sound : Sound table) (type : TypeName)
    (ready : ∀ component, type = .array component → TypeName.rootClass.name ∈ table.index ∧
      (component.isPrimitive = false → component.name ∈ table.index)) :
    Sound (table.add type) := by
  by_cases known : type.name ∈ table.index
  · rw [add_of_mem known]
    exact sound
  have grows := add_grows table type
  rw [add_of_not_mem known] at grows ⊢
  constructor
  · intro name id
    simp only [Std.TreeMap.getElem?_insert, Array.getElem?_push, Std.compare_eq_iff_eq]
    by_cases same : type.name = name
    · -- The new number is the only one of the new name.
      subst same
      simp only [if_true, Option.some.injEq]
      constructor
      · rintro rfl
        exact ⟨type, by simp, rfl⟩
      · rintro ⟨other, stands, named⟩
        by_cases new : id = table.types.size
        · exact new.symm
        · rw [if_neg new] at stands
          have old := (sound.index_iff type.name id).mpr ⟨other, stands, named⟩
          exact absurd (Std.TreeMap.mem_iff_isSome_getElem?.mpr (by simp [old])) known
    · rw [if_neg same, sound.index_iff name id]
      constructor
      · rintro ⟨other, stands, named⟩
        have inside : id < table.types.size := (Array.getElem?_eq_some_iff.mp stands).1
        exact ⟨other, by rw [if_neg (Nat.ne_of_lt inside), stands], named⟩
      · rintro ⟨other, stands, named⟩
        by_cases new : id = table.types.size
        · rw [if_pos new] at stands
          exact absurd (Option.some.inj stands ▸ named) same
        · rw [if_neg new] at stands
          exact ⟨other, stands, named⟩
  · intro id component stands
    rw [Array.getElem?_push] at stands
    by_cases new : id = table.types.size
    · rw [if_pos new] at stands
      obtain ⟨root, inner⟩ := ready component (Option.some.inj stands)
      refine ⟨grows.mem root, fun reference => ?_⟩
      obtain ⟨earlier, found⟩ := Option.isSome_iff_exists.mp
        (Std.TreeMap.mem_iff_isSome_getElem?.mp (inner reference))
      exact ⟨earlier, new ▸ sound.lt_size found, grows _ _ found⟩
    · rw [if_neg new] at stands
      obtain ⟨root, inner⟩ := sound.arrays id component stands
      refine ⟨grows.mem root, fun reference => ?_⟩
      obtain ⟨earlier, before, found⟩ := inner reference
      exact ⟨earlier, before, grows _ _ found⟩

/-- Interning adds what is numbered with a type, in order. -/
theorem intern_eq_foldl (table : ClassTable) (type : TypeName) :
    table.intern type = type.numbered.foldl add table := by
  induction type generalizing table with
  | primitive kind => rfl
  | object name => rfl
  | array component inductionHypothesis =>
    simp [intern, TypeName.numbered, inductionHypothesis]

/-- Adding several types keeps all numbers. -/
theorem foldl_add_grows (types : List TypeName) (table : ClassTable) :
    Grows table (types.foldl add table) := by
  induction types generalizing table with
  | nil => exact .refl table
  | cons type rest inductionHypothesis =>
    exact (add_grows table type).trans (inductionHypothesis (table.add type))

/-- Interning a type keeps all numbers. -/
theorem intern_grows (table : ClassTable) (type : TypeName) : Grows table (table.intern type) :=
  intern_eq_foldl table type ▸ foldl_add_grows type.numbered table

/-- Interning several types keeps all numbers. -/
theorem internAll_grows (table : ClassTable) (types : List TypeName) :
    Grows table (table.internAll types) := by
  induction types generalizing table with
  | nil => exact .refl table
  | cons type rest inductionHypothesis =>
    exact (intern_grows table type).trans (inductionHypothesis (table.intern type))

/-- After interning, every part of the type has a number. -/
theorem intern_knows (table : ClassTable) (type : TypeName) : Knows (table.intern type) type := by
  have added (types : List TypeName) (table : ClassTable) :
      ∀ part ∈ types, part.name ∈ (types.foldl add table).index := by
    induction types generalizing table with
    | nil => simp
    | cons first rest inductionHypothesis =>
      intro part listed
      rcases List.mem_cons.mp listed with rfl | later
      · exact (foldl_add_grows rest (table.add part)).mem (mem_add table part)
      · exact inductionHypothesis (table.add first) part later
  rw [intern_eq_foldl]
  exact added type.numbered table

/-- Types that were interned are known. -/
theorem internAll_knows (table : ClassTable) (types : List TypeName) :
    ∀ type ∈ types, Knows (table.internAll types) type := by
  induction types generalizing table with
  | nil => simp
  | cons first rest inductionHypothesis =>
    intro type listed
    rcases List.mem_cons.mp listed with rfl | later
    · exact (intern_knows table type).mono (internAll_grows (table.intern type) rest)
    · exact inductionHypothesis (table.intern first) type later

/-- A type whose parts all have numbers adds none. -/
theorem intern_of_knows {type : TypeName} (known : Knows table type) :
    table.intern type = table := by
  have unchanged (types : List TypeName) (all : ∀ part ∈ types, part.name ∈ table.index) :
      types.foldl add table = table := by
    induction types with
    | nil => rfl
    | cons first rest inductionHypothesis =>
      rw [List.foldl_cons, add_of_mem (all first List.mem_cons_self)]
      exact inductionHypothesis fun part later => all part (List.mem_cons_of_mem first later)
  rw [intern_eq_foldl]
  exact unchanged type.numbered known

/-- Interning known types changes nothing. -/
theorem internAll_of_knows {types : List TypeName} (known : ∀ type ∈ types, Knows table type) :
    table.internAll types = table := by
  induction types with
  | nil => rfl
  | cons first rest inductionHypothesis =>
    change (table.intern first).internAll rest = table
    rw [intern_of_knows (known first List.mem_cons_self)]
    exact inductionHypothesis fun type later => known type (List.mem_cons_of_mem first later)

/-- Interning keeps a table sound. An array is added last, when its component and the root
class have their numbers. -/
theorem intern_sound (sound : Sound table) (type : TypeName) : Sound (table.intern type) := by
  induction type with
  | primitive kind => exact sound
  | object name => exact add_sound sound (.object name) (by simp)
  | array component inductionHypothesis =>
    have withRoot : Sound ((table.intern component).add .rootClass) :=
      add_sound inductionHypothesis .rootClass (by simp [TypeName.rootClass])
    apply add_sound withRoot (.array component)
    rintro inner ⟨⟩
    refine ⟨mem_add (table.intern component) .rootClass, fun reference => ?_⟩
    exact (add_grows (table.intern component) .rootClass).mem
      (intern_knows table component component (TypeName.mem_numbered_self reference))

/-- Interning keeps a table sound. -/
theorem internAll_sound (sound : Sound table) (types : List TypeName) :
    Sound (table.internAll types) := by
  induction types generalizing table with
  | nil => exact sound
  | cons type rest inductionHypothesis => exact inductionHypothesis (intern_sound sound type)

/-- A number found for a type is that of a type with its name. -/
theorem Sound.type_of_id? (sound : Sound table) {type : TypeName} {id : ClassId}
    (found : table.id? type = some id) :
    ∃ stored, table.types[id]? = some stored ∧ stored.name = type.name := by
  rw [id?] at found
  split at found
  · simp at found
  · exact (sound.index_iff type.name id).mp found

/-- The numbers of a sound table are those of its types. -/
theorem Sound.id?_lt_size (sound : Sound table) {type : TypeName} {id : ClassId}
    (found : table.id? type = some id) : id < table.types.size := by
  obtain ⟨stored, stands, _⟩ := sound.type_of_id? found
  exact (Array.getElem?_eq_some_iff.mp stands).1

/-- A known type has a number unless it is primitive. -/
theorem Knows.id?_isSome {type : TypeName} (known : Knows table type)
    (reference : type.isPrimitive = false) : ∃ id, table.id? type = some id := by
  have named := known type (TypeName.mem_numbered_self reference)
  rw [id?, if_neg (by simp [reference])]
  exact Option.isSome_iff_exists.mp (Std.TreeMap.mem_iff_isSome_getElem?.mp named)

/-- A known type that is not primitive has a number. -/
theorem Knows.id?_eq {type : TypeName} (known : Knows table type)
    (reference : type.isPrimitive = false) : table.id? type = some (table.id type) := by
  obtain ⟨number, found⟩ := known.id?_isSome reference
  rw [ClassTable.id, found, Option.getD_some]

end ClassTable

end ClassAtlas
