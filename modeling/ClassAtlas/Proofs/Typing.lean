import ClassAtlas.Graph.Declaration
import Mathlib.Data.List.Forall2

/-!
# What reading the types of a record establishes

A record whose types could be read declares a plain class, whose name holds no bracket and
so is the name of no array. Every annotation it carries, however deep, names classes or
arrays and never a primitive type; class literals may name anything.

Reading is a chain of steps of which the first failure is the result. The lemmas on chains
come first: a chain that ends well has ended well at every step.
-/

namespace ClassAtlas

section Reading

variable {α β ε : Type}

/-- Two readings in a row end well exactly when both do. -/
theorem bind_eq_ok_iff {first : Except ε α} {second : α → Except ε β} {result : β} :
    first >>= second = .ok result ↔ ∃ value, first = .ok value ∧ second value = .ok result := by
  cases first with
  | error problem => simp [bind, Except.bind]
  | ok value => simp [bind, Except.bind]

/-- A reading that is converted afterwards ends well exactly when the reading does. -/
theorem map_eq_ok_iff {step : Except ε α} {change : α → β} {result : β} :
    step.map change = .ok result ↔ ∃ value, step = .ok value ∧ change value = result := by
  cases step with
  | error problem => simp [Except.map]
  | ok value => simp [Except.map]

/-- A list is read exactly when each entry is, in its place. -/
theorem mapM_eq_ok_iff {read : α → Except ε β} {texts : List α} {values : List β} :
    texts.mapM read = .ok values ↔
      List.Forall₂ (fun text value => read text = .ok value) texts values := by
  induction texts generalizing values with
  | nil => cases values <;> simp [pure, Except.pure]
  | cons text rest inductionHypothesis =>
    simp only [List.mapM_cons, bind_eq_ok_iff, inductionHypothesis, List.forall₂_cons_left_iff,
      pure, Except.pure, Except.ok.injEq]
    constructor
    · rintro ⟨value, read, later, reads, rfl⟩
      exact ⟨value, later, read, reads, rfl⟩
    · rintro ⟨value, later, read, reads, rfl⟩
      exact ⟨value, read, later, reads, rfl⟩

/-- A list can be read exactly when each entry can. -/
theorem exists_mapM_eq_ok_iff {read : α → Except ε β} {texts : List α} :
    (∃ values, texts.mapM read = .ok values) ↔ ∀ text ∈ texts, ∃ value, read text = .ok value := by
  simp only [mapM_eq_ok_iff]
  induction texts with
  | nil => simp
  | cons text rest inductionHypothesis =>
    rw [List.forall_mem_cons, ← inductionHypothesis]
    constructor
    · rintro ⟨_, reading⟩
      obtain ⟨value, values, readFirst, readRest, rfl⟩ := List.forall₂_cons_left_iff.mp reading
      exact ⟨⟨value, readFirst⟩, values, readRest⟩
    · rintro ⟨⟨value, readFirst⟩, values, readRest⟩
      exact ⟨value :: values, .cons readFirst readRest⟩

/-- The values read from a list are those that its entries are read as. -/
theorem mem_read_iff {read : α → Except ε β} {texts : List α} {values : List β}
    (done : texts.mapM read = .ok values) {value : β} :
    value ∈ values ↔ ∃ text ∈ texts, read text = .ok value := by
  have reads := mapM_eq_ok_iff.mp done
  clear done
  induction reads with
  | nil => simp
  | cons reading _ inductionHypothesis =>
    rw [List.mem_cons, List.exists_mem_cons_iff, reading, Except.ok.injEq, eq_comm]
    exact or_congr_right inductionHypothesis

/-- What holds of some value read from a list, where it can be told from the entry. -/
theorem exists_mem_read_iff {read : α → Except ε β} {texts : List α} {values : List β}
    {onValue : β → Prop} {onText : α → Prop} (done : texts.mapM read = .ok values)
    (agree : ∀ text value, read text = .ok value → (onValue value ↔ onText text)) :
    (∃ value ∈ values, onValue value) ↔ ∃ text ∈ texts, onText text := by
  have reads := mapM_eq_ok_iff.mp done
  clear done
  induction reads with
  | nil => simp
  | @cons text value _ _ reading _ inductionHypothesis =>
    rw [List.exists_mem_cons_iff, List.exists_mem_cons_iff, agree text value reading]
    exact or_congr_right inductionHypothesis

/-- A text that may be absent is read as what it stands for, if it is there. -/
theorem mem_toList_read_iff {read : α → Except ε β} {text : Option α} {value : Option β}
    (done : text.mapM read = .ok value) {found : β} :
    found ∈ value.toList ↔ ∃ given, text = some given ∧ read given = .ok found := by
  cases text with
  | none =>
    cases done
    simp
  | some given =>
    obtain ⟨result, reading, rfl⟩ := map_eq_ok_iff.mp done
    simp [reading, eq_comm]

/-- Every value read from a list comes from one of its entries. -/
theorem exists_read_of_mem {read : α → Except ε β} {texts : List α} {values : List β}
    (done : texts.mapM read = .ok values) {value : β} (listed : value ∈ values) :
    ∃ text ∈ texts, read text = .ok value :=
  (mem_read_iff done).mp listed

/-- Side by side with the entries, every value stands beside the one it was read from. -/
theorem read_of_mem_zip {read : α → Except ε β} {texts : List α} {values : List β}
    (done : texts.mapM read = .ok values) {text : α} {value : β}
    (paired : (text, value) ∈ texts.zip values) : read text = .ok value :=
  (List.forall₂_iff_zip.mp (mapM_eq_ok_iff.mp done)).2 paired

/-- No entry is without a value. -/
theorem map_fst_zip_read {read : α → Except ε β} {texts : List α} {values : List β}
    (done : texts.mapM read = .ok values) : (texts.zip values).map Prod.fst = texts :=
  List.map_fst_zip (Nat.le_of_eq (mapM_eq_ok_iff.mp done).length_eq)

end Reading

section Annotations

variable {τ κ τ' κ' : Type}

mutual

/-- All types in an annotation, at any depth: `named` of annotation and enum types,
`literal` of the types of class literals. -/
def AnnotationUse.Every (named : τ → Prop) (literal : κ → Prop) : AnnotationUse τ κ → Prop
  | .mk type elements => named type ∧ elementsEvery named literal elements

/-- All types in a list of elements. -/
def elementsEvery (named : τ → Prop) (literal : κ → Prop) : List (Element τ κ) → Prop
  | [] => True
  | .mk _ value :: rest => ElementValue.Every named literal value ∧ elementsEvery named literal rest

/-- All types in a value. -/
def ElementValue.Every (named : τ → Prop) (literal : κ → Prop) : ElementValue τ κ → Prop
  | .literal _ => True
  | .enumConstant type _ => named type
  | .classLiteral type => literal type
  | .nested value => AnnotationUse.Every named literal value
  | .array values => valuesEvery named literal values

/-- All types in a list of values. -/
def valuesEvery (named : τ → Prop) (literal : κ → Prop) : List (ElementValue τ κ) → Prop
  | [] => True
  | value :: rest => ElementValue.Every named literal value ∧ valuesEvery named literal rest

end

section FromReading

/-- Reading gives types with a property: one for the types of annotations and enums, and one for
those of class literals. -/
structure ReadsInto {ε : Type} (readNamed : τ → Except ε τ') (readLiteral : κ → Except ε κ')
    (named : τ' → Prop) (literal : κ' → Prop) : Prop where
  onNamed : ∀ text type, readNamed text = .ok type → named type
  onLiteral : ∀ text type, readLiteral text = .ok type → literal type

variable {ε : Type} {readNamed : τ → Except ε τ'} {readLiteral : κ → Except ε κ'}
  {named : τ' → Prop} {literal : κ' → Prop}

mutual

/-- What reading a name guarantees holds at every depth of a read annotation. -/
theorem AnnotationUse.every_of_read
    (reads : ReadsInto readNamed readLiteral named literal) :
    ∀ (raw : AnnotationUse τ κ) (typed : AnnotationUse τ' κ'),
      AnnotationUse.mapTypes readNamed readLiteral raw = .ok typed → typed.Every named literal
  | .mk text elements, typed, done => by
    rw [AnnotationUse.mapTypes] at done
    obtain ⟨type, typeRead, done⟩ := bind_eq_ok_iff.mp done
    obtain ⟨read, elementsRead, done⟩ := bind_eq_ok_iff.mp done
    cases done
    exact ⟨reads.onNamed text type typeRead, elementsEvery_of_read reads elements read elementsRead⟩

/-- The types of read elements have what reading ensures. -/
theorem elementsEvery_of_read
    (reads : ReadsInto readNamed readLiteral named literal) :
    ∀ (raw : List (Element τ κ)) (typed : List (Element τ' κ')),
      elementsTypes readNamed readLiteral raw = .ok typed → elementsEvery named literal typed
  | [], typed, done => by
    rw [elementsTypes] at done
    cases done
    trivial
  | .mk name value :: rest, typed, done => by
    rw [elementsTypes] at done
    obtain ⟨first, firstRead, done⟩ := bind_eq_ok_iff.mp done
    obtain ⟨later, laterRead, done⟩ := bind_eq_ok_iff.mp done
    cases done
    exact ⟨ElementValue.every_of_read reads value first firstRead,
      elementsEvery_of_read reads rest later laterRead⟩

/-- The same holds for a value, by its kind. -/
theorem ElementValue.every_of_read
    (reads : ReadsInto readNamed readLiteral named literal) :
    ∀ (raw : ElementValue τ κ) (typed : ElementValue τ' κ'),
      ElementValue.mapTypes readNamed readLiteral raw = .ok typed → typed.Every named literal
  | .literal value, typed, done => by
    rw [ElementValue.mapTypes] at done
    cases done
    trivial
  | .enumConstant text constant, typed, done => by
    rw [ElementValue.mapTypes] at done
    obtain ⟨type, typeRead, done⟩ := bind_eq_ok_iff.mp done
    cases done
    exact reads.onNamed text type typeRead
  | .classLiteral text, typed, done => by
    rw [ElementValue.mapTypes] at done
    obtain ⟨type, typeRead, done⟩ := bind_eq_ok_iff.mp done
    cases done
    exact reads.onLiteral text type typeRead
  | .nested value, typed, done => by
    rw [ElementValue.mapTypes] at done
    obtain ⟨inner, innerRead, done⟩ := bind_eq_ok_iff.mp done
    cases done
    exact AnnotationUse.every_of_read reads value inner innerRead
  | .array values, typed, done => by
    rw [ElementValue.mapTypes] at done
    obtain ⟨inner, innerRead, done⟩ := bind_eq_ok_iff.mp done
    cases done
    exact valuesEvery_of_read reads values inner innerRead

/-- The same holds for values. -/
theorem valuesEvery_of_read
    (reads : ReadsInto readNamed readLiteral named literal) :
    ∀ (raw : List (ElementValue τ κ)) (typed : List (ElementValue τ' κ')),
      valuesTypes readNamed readLiteral raw = .ok typed → valuesEvery named literal typed
  | [], typed, done => by
    rw [valuesTypes] at done
    cases done
    trivial
  | value :: rest, typed, done => by
    rw [valuesTypes] at done
    obtain ⟨first, firstRead, done⟩ := bind_eq_ok_iff.mp done
    obtain ⟨later, laterRead, done⟩ := bind_eq_ok_iff.mp done
    cases done
    exact ⟨ElementValue.every_of_read reads value first firstRead,
      valuesEvery_of_read reads rest later laterRead⟩

end

end FromReading

section FromMentions

/-- What stands for known types has a property: one for the types of annotations and enums, of which
more is given, and one for those of class literals. -/
structure ReplacesInto {α : Type} (given known : α → Prop) (replace : α → τ')
    (replaceLiteral : α → κ') (named : τ' → Prop) (literal : κ' → Prop) : Prop where
  onNamed : ∀ type, given type → known type → named (replace type)
  onLiteral : ∀ type, known type → literal (replaceLiteral type)

variable {α : Type} {given known : α → Prop} {replace : α → τ'} {replaceLiteral : α → κ'}
  {named : τ' → Prop} {literal : κ' → Prop}

mutual

/-- Replacing known types by what they stand for, at every depth. All types that an
annotation mentions are known; of those that name annotations and enums more is given. -/
theorem AnnotationUse.every_replaced
    (replaces : ReplacesInto given known replace replaceLiteral named literal) :
    ∀ typed : AnnotationUse α α, typed.Every given (fun _ => True) →
      (∀ type ∈ typed.collect List.singleton List.singleton, known type) →
        (AnnotationUse.mapTypes (m := Id) replace replaceLiteral typed).Every named literal
  | .mk type elements, all, mentioned => by
    rw [AnnotationUse.collect] at mentioned
    refine ⟨replaces.onNamed type all.1 (mentioned type ?_),
      elementsEvery_replaced replaces elements all.2 ?_⟩
    · exact List.mem_append_left _ (List.mem_singleton_self type)
    · exact fun other listed => mentioned other (List.mem_append_right _ listed)

/-- What stands for the types of elements has what replacing known types ensures. -/
theorem elementsEvery_replaced
    (replaces : ReplacesInto given known replace replaceLiteral named literal) :
    ∀ typed : List (Element α α), elementsEvery given (fun _ => True) typed →
      (∀ type ∈ elementsCollect List.singleton List.singleton typed, known type) →
        elementsEvery named literal (elementsTypes (m := Id) replace replaceLiteral typed)
  | [], _, _ => trivial
  | .mk name value :: rest, all, mentioned => by
    rw [elementsCollect] at mentioned
    exact ⟨ElementValue.every_replaced replaces value all.1 fun other listed =>
        mentioned other (List.mem_append_left _ listed),
      elementsEvery_replaced replaces rest all.2 fun other listed =>
        mentioned other (List.mem_append_right _ listed)⟩

/-- The same holds for a value, by its kind. -/
theorem ElementValue.every_replaced
    (replaces : ReplacesInto given known replace replaceLiteral named literal) :
    ∀ typed : ElementValue α α, typed.Every given (fun _ => True) →
      (∀ type ∈ typed.collect List.singleton List.singleton, known type) →
        (ElementValue.mapTypes (m := Id) replace replaceLiteral typed).Every named literal
  | .literal _, _, _ => trivial
  | .enumConstant type _, all, mentioned =>
    replaces.onNamed type all (mentioned type (List.mem_singleton_self type))
  | .classLiteral type, _, mentioned =>
    replaces.onLiteral type (mentioned type (List.mem_singleton_self type))
  | .nested value, all, mentioned => AnnotationUse.every_replaced replaces value all mentioned
  | .array values, all, mentioned => valuesEvery_replaced replaces values all mentioned

/-- The same holds for values. -/
theorem valuesEvery_replaced
    (replaces : ReplacesInto given known replace replaceLiteral named literal) :
    ∀ typed : List (ElementValue α α), valuesEvery given (fun _ => True) typed →
      (∀ type ∈ valuesCollect List.singleton List.singleton typed, known type) →
        valuesEvery named literal (valuesTypes (m := Id) replace replaceLiteral typed)
  | [], _, _ => trivial
  | value :: rest, all, mentioned => by
    rw [valuesCollect] at mentioned
    exact ⟨ElementValue.every_replaced replaces value all.1 fun other listed =>
        mentioned other (List.mem_append_left _ listed),
      valuesEvery_replaced replaces rest all.2 fun other listed =>
        mentioned other (List.mem_append_right _ listed)⟩

end

end FromMentions

end Annotations

namespace TypeName

/-- No class name inside the type holds punctuation of descriptors. -/
def Spelled : TypeName → Prop
  | primitive _ => True
  | object name => ∀ letter ∈ name.toList, letter ∉ punctuation
  | array component => component.Spelled

/-- Arrays are spelled as their elements. -/
theorem spelled_arrayOf {element : TypeName} (spelled : element.Spelled) (count : Nat) :
    (element.arrayOf count).Spelled := by
  induction count with
  | zero => exact spelled
  | succ count inductionHypothesis => exact inductionHypothesis

/-- Dots in place of slashes bring no punctuation in. -/
theorem spelled_of_ofObjectName {letters : List Char} {type : TypeName}
    (read : ofObjectName letters = .ok type) : type.Spelled := by
  rw [ofObjectName] at read
  split at read
  · rename_i valid
    cases read
    intro letter listed
    have plain : ∀ original ∈ letters, original ∉ punctuation := by
      simpa [isObjectName] using (Bool.and_eq_true_iff.mp valid).2
    rw [String.toList_ofList, Name.respell, List.mem_map] at listed
    obtain ⟨original, present, rfl⟩ := listed
    split
    · decide
    · exact plain original present
  · simp at read

/-- Types read from binary names of arrays are spelled without punctuation. -/
theorem spelled_of_ofBinaryArray {letters : List Char} {type : TypeName}
    (read : ofBinaryArray letters = .ok type) : type.Spelled := by
  have element {letters : List Char} {type : TypeName} (read : ofArrayElement letters = .ok type) :
      type.Spelled := by
    rw [ofArrayElement] at read
    split at read
    · simp at read
    · cases read
      trivial
    · split at read
      · exact spelled_of_ofObjectName read
      · simp at read
  obtain ⟨type, inner, rfl⟩ := map_eq_ok_iff.mp read
  exact spelled_arrayOf (element inner) _

/-- Types read from source names of arrays are spelled without punctuation. -/
theorem spelled_of_ofSourceArray {raw : String} {type : TypeName}
    (read : ofSourceArray raw = .ok type) : type.Spelled := by
  simp only [ofSourceArray] at read
  split at read
  · simp at read
  · split at read
    · simp at read
    · cases read
      exact spelled_arrayOf (show (primitive _).Spelled from trivial) _
    · obtain ⟨type, inner, rfl⟩ := map_eq_ok_iff.mp read
      exact spelled_arrayOf (spelled_of_ofObjectName inner) _

/-- A class name is read into a type without stray punctuation, whatever its notation. -/
theorem spelled_of_ofClassName {raw : String} {type : TypeName}
    (read : ofClassName raw = .ok type) : type.Spelled := by
  rw [ofClassName] at read
  split at read
  · cases read
    trivial
  · rw [ofForm] at read
    split at read
    · simp at read
    · exact spelled_of_ofBinaryArray read
    · exact spelled_of_ofSourceArray read
    · exact spelled_of_ofObjectName read

/-- No class has the name of an array. -/
theorem Spelled.name_ne {name : String} (spelled : (object name).Spelled) (component : TypeName) :
    name ≠ (array component).name := by
  rintro rfl
  have bracket : '[' ∈ (array component).name.toList := by simp [TypeName.name]
  exact spelled '[' bracket (by decide)

/-- A declared class is a class without stray punctuation in its name. -/
theorem exists_object_of_ofDeclaredName {raw : String} {type : TypeName}
    (read : ofDeclaredName raw = .ok type) : ∃ name, type = object name ∧ type.Spelled := by
  obtain ⟨named, classRead, matched⟩ := bind_eq_ok_iff.mp read
  have spelled := spelled_of_ofClassName classRead
  cases named with
  | primitive kind => simp [throw, throwThe, MonadExceptOf.throw] at matched
  | array component => simp [throw, throwThe, MonadExceptOf.throw] at matched
  | object name =>
    cases matched
    exact ⟨name, rfl, spelled⟩

/-- So it has a name that no array has. -/
theorem ofDeclaredName_ne_array {raw : String} {type : TypeName}
    (read : ofDeclaredName raw = .ok type) :
    type.isPrimitive = false ∧ ∀ component, type.name ≠ (array component).name := by
  obtain ⟨name, rfl, spelled⟩ := exists_object_of_ofDeclaredName read
  exact ⟨rfl, spelled.name_ne⟩

/-- Reference descriptors describe no primitive types. -/
theorem isPrimitive_of_ofReferenceDescriptor {text : String} {type : TypeName}
    (read : ofReferenceDescriptor text = .ok type) : type.isPrimitive = false := by
  obtain ⟨found, _, checked⟩ := bind_eq_ok_iff.mp read
  cases primitive : found.isPrimitive with
  | true => simp [primitive, throw, throwThe, MonadExceptOf.throw] at checked
  | false =>
    simp only [primitive, Bool.false_eq_true, if_false] at checked
    cases checked
    exact primitive

end TypeName

/-- The annotation and enum types of read annotations are no primitive types. -/
def ReferenceAnnotations (annotations : TypedAnnotations) : Prop :=
  ∀ annotation ∈ annotations,
    annotation.Every (fun type => type.isPrimitive = false) (fun _ => True)

/-- Annotations are read with reference types. -/
theorem referenceAnnotations_of_read {raw : List AnnotationRecord} {typed : TypedAnnotations}
    (read : typeAnnotations raw = .ok typed) : ReferenceAnnotations typed := by
  intro annotation listed
  obtain ⟨text, _, annotationRead⟩ := exists_read_of_mem read listed
  exact AnnotationUse.every_of_read
    ⟨fun _ _ named => TypeName.isPrimitive_of_ofReferenceDescriptor named, fun _ _ _ => trivial⟩
    text annotation annotationRead

/-- The types of a field, each read from its text. -/
structure FieldTypes.ReadFrom (field : FieldRecord) (types : FieldTypes) : Prop where
  value : TypeName.ofDescriptor field.descriptor = .ok types.value
  annotations : typeAnnotations field.annotations = .ok types.annotations

/-- The types of a method, each read from its text. -/
structure MethodTypes.ReadFrom (method : MethodRecord) (types : MethodTypes) : Prop where
  descriptor : MethodDescriptor.parse method.descriptor = .ok types.descriptor
  throws : method.throws.mapM TypeName.ofClassName = .ok types.throws
  accessOwners : (method.accesses.mapM fun access => TypeName.ofClassName access.owner) =
    .ok types.accessOwners
  typeMentions : (method.typeMentions.mapM fun mention => TypeName.ofClassName mention.name) =
    .ok types.typeMentions
  annotations : typeAnnotations method.annotations = .ok types.annotations

/-- The types of a record, each read from its text. -/
structure RecordTypes.ReadFrom (record : ClassRecord) (types : RecordTypes) : Prop where
  this : TypeName.ofDeclaredName record.name = .ok types.this
  superclass : record.superclass.mapM TypeName.ofClassName = .ok types.superclass
  interfaces : record.interfaces.mapM TypeName.ofClassName = .ok types.interfaces
  enclosing : record.nesting.enclosingClass.mapM TypeName.ofClassName = .ok types.enclosing
  annotations : typeAnnotations record.annotations = .ok types.annotations
  fields : record.fields.mapM FieldTypes.ofRecord = .ok types.fields
  methods : record.methods.mapM MethodTypes.ofRecord = .ok types.methods

/-- The types of a field are read from its record. -/
theorem FieldTypes.readFrom_of_read {field : FieldRecord} {types : FieldTypes}
    (read : FieldTypes.ofRecord field = .ok types) : ReadFrom field types := by
  obtain ⟨value, valueRead, read⟩ := bind_eq_ok_iff.mp read
  obtain ⟨annotations, annotationsRead, read⟩ := bind_eq_ok_iff.mp read
  cases read
  exact ⟨valueRead, annotationsRead⟩

/-- The types of a method are read from its record. -/
theorem MethodTypes.readFrom_of_read {method : MethodRecord} {types : MethodTypes}
    (read : MethodTypes.ofRecord method = .ok types) : ReadFrom method types := by
  obtain ⟨descriptor, descriptorRead, read⟩ := bind_eq_ok_iff.mp read
  obtain ⟨throws, throwsRead, read⟩ := bind_eq_ok_iff.mp read
  obtain ⟨accessOwners, ownersRead, read⟩ := bind_eq_ok_iff.mp read
  obtain ⟨typeMentions, bodyRead, read⟩ := bind_eq_ok_iff.mp read
  obtain ⟨annotations, annotationsRead, read⟩ := bind_eq_ok_iff.mp read
  cases read
  exact ⟨descriptorRead, throwsRead, ownersRead, bodyRead, annotationsRead⟩

/-- The types of a record are read from it. -/
theorem RecordTypes.readFrom_of_read {record : ClassRecord} {types : RecordTypes}
    (read : RecordTypes.ofRecord record = .ok types) : ReadFrom record types := by
  obtain ⟨this, thisRead, read⟩ := bind_eq_ok_iff.mp read
  obtain ⟨superclass, superclassRead, read⟩ := bind_eq_ok_iff.mp read
  obtain ⟨interfaces, interfacesRead, read⟩ := bind_eq_ok_iff.mp read
  obtain ⟨enclosing, enclosingRead, read⟩ := bind_eq_ok_iff.mp read
  obtain ⟨annotations, annotationsRead, read⟩ := bind_eq_ok_iff.mp read
  obtain ⟨fields, fieldsRead, read⟩ := bind_eq_ok_iff.mp read
  obtain ⟨methods, methodsRead, read⟩ := bind_eq_ok_iff.mp read
  cases read
  exact ⟨thisRead, superclassRead, interfacesRead, enclosingRead, annotationsRead, fieldsRead,
    methodsRead⟩

/-- What is known of the types of a record that could be read. -/
structure RecordTypes.Readable (types : RecordTypes) : Prop where
  reference : types.this.isPrimitive = false
  plain : ∀ component : TypeName, types.this.name ≠ (TypeName.array component).name
  annotations : ReferenceAnnotations types.annotations
  fields : ∀ field ∈ types.fields, ReferenceAnnotations field.annotations
  methods : ∀ method ∈ types.methods, ReferenceAnnotations method.annotations

/-- Reading the types of a record establishes all of this. -/
theorem RecordTypes.readable_of_read {record : ClassRecord} {types : RecordTypes}
    (read : RecordTypes.ofRecord record = .ok types) : types.Readable := by
  have parts := readFrom_of_read read
  obtain ⟨reference, plain⟩ := TypeName.ofDeclaredName_ne_array parts.this
  refine ⟨reference, plain, referenceAnnotations_of_read parts.annotations, ?_, ?_⟩
  · intro field listed
    obtain ⟨_, _, fieldRead⟩ := exists_read_of_mem parts.fields listed
    exact referenceAnnotations_of_read (FieldTypes.readFrom_of_read fieldRead).annotations
  · intro method listed
    obtain ⟨_, _, methodRead⟩ := exists_read_of_mem parts.methods listed
    exact referenceAnnotations_of_read (MethodTypes.readFrom_of_read methodRead).annotations

end ClassAtlas
