import ClassAtlas.Proofs.References
import ClassAtlas.Proofs.Typing

/-!
# What a class record mentions

The places of a record where a type can stand are listed here one by one: supertypes, the
enclosing class, fields, the signatures and bodies of methods, and annotations to any depth.
The types read from a record are shown to be exactly those that its texts stand for in these
places.
-/

namespace ClassAtlas

section Annotations

variable {τ κ α ε : Type} {readNamed : τ → Except ε α} {readLiteral : κ → Except ε α}

mutual

/-- The types in an annotation that was read are those that its texts are read as. -/
theorem AnnotationUse.collect_of_read : ∀ (raw : AnnotationUse τ κ) (typed : AnnotationUse α α),
    AnnotationUse.mapTypes readNamed readLiteral raw = .ok typed →
      typed.collect List.singleton List.singleton =
        raw.collect (fun text => (readNamed text).toOption.toList)
          (fun text => (readLiteral text).toOption.toList)
  | .mk text elements, typed, done => by
    rw [AnnotationUse.mapTypes] at done
    obtain ⟨type, typeRead, done⟩ := bind_eq_ok_iff.mp done
    obtain ⟨read, elementsRead, done⟩ := bind_eq_ok_iff.mp done
    cases done
    rw [AnnotationUse.collect, AnnotationUse.collect, typeRead,
      elementsCollect_of_read elements read elementsRead]
    rfl

/-- The same holds for elements. -/
theorem elementsCollect_of_read :
    ∀ (raw : List (Element τ κ)) (typed : List (Element α α)),
      elementsTypes readNamed readLiteral raw = .ok typed →
        elementsCollect List.singleton List.singleton typed =
          elementsCollect (fun text => (readNamed text).toOption.toList)
            (fun text => (readLiteral text).toOption.toList) raw
  | [], typed, done => by
    rw [elementsTypes] at done
    cases done
    rfl
  | .mk name value :: rest, typed, done => by
    rw [elementsTypes] at done
    obtain ⟨first, firstRead, done⟩ := bind_eq_ok_iff.mp done
    obtain ⟨later, laterRead, done⟩ := bind_eq_ok_iff.mp done
    cases done
    rw [elementsCollect, elementsCollect, ElementValue.collect_of_read value first firstRead,
      elementsCollect_of_read rest later laterRead]

/-- The same holds for a value, by its kind. -/
theorem ElementValue.collect_of_read : ∀ (raw : ElementValue τ κ) (typed : ElementValue α α),
    ElementValue.mapTypes readNamed readLiteral raw = .ok typed →
      typed.collect List.singleton List.singleton =
        raw.collect (fun text => (readNamed text).toOption.toList)
          (fun text => (readLiteral text).toOption.toList)
  | .literal value, typed, done => by
    rw [ElementValue.mapTypes] at done
    cases done
    rfl
  | .enumConstant text constant, typed, done => by
    rw [ElementValue.mapTypes] at done
    obtain ⟨type, typeRead, done⟩ := bind_eq_ok_iff.mp done
    cases done
    rw [ElementValue.collect, ElementValue.collect, typeRead]
    rfl
  | .classLiteral text, typed, done => by
    rw [ElementValue.mapTypes] at done
    obtain ⟨type, typeRead, done⟩ := bind_eq_ok_iff.mp done
    cases done
    rw [ElementValue.collect, ElementValue.collect, typeRead]
    rfl
  | .nested value, typed, done => by
    rw [ElementValue.mapTypes] at done
    obtain ⟨inner, innerRead, done⟩ := bind_eq_ok_iff.mp done
    cases done
    rw [ElementValue.collect, ElementValue.collect,
      AnnotationUse.collect_of_read value inner innerRead]
  | .array values, typed, done => by
    rw [ElementValue.mapTypes] at done
    obtain ⟨inner, innerRead, done⟩ := bind_eq_ok_iff.mp done
    cases done
    rw [ElementValue.collect, ElementValue.collect, valuesCollect_of_read values inner innerRead]

/-- The same holds for values. -/
theorem valuesCollect_of_read :
    ∀ (raw : List (ElementValue τ κ)) (typed : List (ElementValue α α)),
      valuesTypes readNamed readLiteral raw = .ok typed →
        valuesCollect List.singleton List.singleton typed =
          valuesCollect (fun text => (readNamed text).toOption.toList)
            (fun text => (readLiteral text).toOption.toList) raw
  | [], typed, done => by
    rw [valuesTypes] at done
    cases done
    rfl
  | value :: rest, typed, done => by
    rw [valuesTypes] at done
    obtain ⟨first, firstRead, done⟩ := bind_eq_ok_iff.mp done
    obtain ⟨later, laterRead, done⟩ := bind_eq_ok_iff.mp done
    cases done
    rw [valuesCollect, valuesCollect, ElementValue.collect_of_read value first firstRead,
      valuesCollect_of_read rest later laterRead]

end

end Annotations

/-- A text in the annotation, at any depth, is the descriptor of a type. Annotation and enum
types are given by descriptors of classes and arrays, class literals by any. -/
inductive AnnotationUse.Describes (mark : AnnotationRecord) (type : TypeName) : Prop
  | named {text : String} (inside : mark.Mentions (.inl text))
      (read : TypeName.ofReferenceDescriptor text = .ok type)
  | literal {text : String} (inside : mark.Mentions (.inr text))
      (read : TypeName.ofDescriptor text = .ok type)

/-- A value is in the list of an outcome exactly if it is the outcome. -/
theorem toOption_toList_mem_iff {ε α : Type} {outcome : Except ε α} {value : α} :
    value ∈ outcome.toOption.toList ↔ outcome = .ok value := by
  cases outcome <;> simp [Except.toOption, eq_comm]

/-- The types that read annotations mention are those described in them. -/
theorem mem_annotationMentions_iff {raw : List AnnotationRecord} {typed : TypedAnnotations}
    (read : typeAnnotations raw = .ok typed) {type : TypeName} :
    type ∈ annotationMentions typed ↔ ∃ mark ∈ raw, mark.Describes type := by
  have described {mark : AnnotationRecord} {result : AnnotationUse TypeName TypeName}
      (markRead : AnnotationUse.mapTypes TypeName.ofReferenceDescriptor TypeName.ofDescriptor mark =
        .ok result) :
      type ∈ result.collect List.singleton List.singleton ↔ mark.Describes type := by
    rw [AnnotationUse.collect_of_read mark result markRead, AnnotationUse.mem_collect_iff]
    constructor
    · rintro ⟨text | text, inside, given⟩
      · exact .named inside (toOption_toList_mem_iff.mp given)
      · exact .literal inside (toOption_toList_mem_iff.mp given)
    · rintro (⟨inside, textRead⟩ | ⟨inside, textRead⟩)
      · exact ⟨_, inside, toOption_toList_mem_iff.mpr textRead⟩
      · exact ⟨_, inside, toOption_toList_mem_iff.mpr textRead⟩
  rw [annotationMentions, List.mem_flatMap]
  exact exists_mem_read_iff read fun mark result markRead => described markRead

/-- The type stands somewhere in a field. -/
inductive FieldRecord.Mentions (field : FieldRecord) (type : TypeName) : Prop
  | value (read : TypeName.ofDescriptor field.descriptor = .ok type)
  | marked {mark : AnnotationRecord} (listed : mark ∈ field.annotations)
      (describes : mark.Describes type)

/-- The type stands somewhere in a method: in its signature, its body or its annotations. -/
inductive MethodRecord.Mentions (method : MethodRecord) (type : TypeName) : Prop
  | returned {descriptor : MethodDescriptor}
      (read : MethodDescriptor.parse method.descriptor = .ok descriptor)
      (returns : descriptor.returnType = type)
  | parameter {descriptor : MethodDescriptor}
      (read : MethodDescriptor.parse method.descriptor = .ok descriptor)
      (takes : type ∈ descriptor.parameters)
  | thrown {text : String} (listed : text ∈ method.throws)
      (read : TypeName.ofClassName text = .ok type)
  | accessOwner {access : AccessRecord} (listed : access ∈ method.accesses)
      (read : TypeName.ofClassName access.owner = .ok type)
  | body {mention : TypeMention} (listed : mention ∈ method.typeMentions)
      (read : TypeName.ofClassName mention.name = .ok type)
  | marked {mark : AnnotationRecord} (listed : mark ∈ method.annotations)
      (describes : mark.Describes type)

/-- The type stands somewhere in a record, apart from the class that the record declares. -/
inductive ClassRecord.Mentions (record : ClassRecord) (type : TypeName) : Prop
  | supertype {text : String} (listed : text ∈ record.supertypes)
      (read : TypeName.ofClassName text = .ok type)
  | enclosing {text : String} (inside : record.nesting.enclosingClass = some text)
      (read : TypeName.ofClassName text = .ok type)
  | marked {mark : AnnotationRecord} (listed : mark ∈ record.annotations)
      (describes : mark.Describes type)
  | field {field : FieldRecord} (listed : field ∈ record.fields) (mentions : field.Mentions type)
  | method {method : MethodRecord} (listed : method ∈ record.methods)
      (mentions : method.Mentions type)

/-- The types of a field are those that stand in it. -/
theorem FieldTypes.mem_mentions_iff {field : FieldRecord} {types : FieldTypes}
    (read : FieldTypes.ofRecord field = .ok types) {type : TypeName} :
    type ∈ types.mentions ↔ field.Mentions type := by
  have parts := readFrom_of_read read
  rw [mentions, List.mem_cons, mem_annotationMentions_iff parts.annotations]
  constructor
  · rintro (rfl | ⟨mark, listed, describes⟩)
    · exact .value parts.value
    · exact .marked listed describes
  · rintro (typeRead | ⟨listed, describes⟩)
    · exact Or.inl (Except.ok.inj (typeRead.symm.trans parts.value))
    · exact Or.inr ⟨_, listed, describes⟩

/-- The types of a method are those that stand in it. -/
theorem MethodTypes.mem_mentions_iff {method : MethodRecord} {types : MethodTypes}
    (read : MethodTypes.ofRecord method = .ok types) {type : TypeName} :
    type ∈ types.mentions ↔ method.Mentions type := by
  have parts := readFrom_of_read read
  simp only [mentions, List.mem_append, List.mem_cons, mem_read_iff parts.throws,
    mem_read_iff parts.accessOwners, mem_read_iff parts.typeMentions,
    mem_annotationMentions_iff parts.annotations]
  constructor
  · rintro (((((rfl | takes) | ⟨_, listed, textRead⟩) | ⟨_, listed, textRead⟩) |
      ⟨_, listed, textRead⟩) | ⟨_, listed, describes⟩)
    · exact .returned parts.descriptor rfl
    · exact .parameter parts.descriptor takes
    · exact .thrown listed textRead
    · exact .accessOwner listed textRead
    · exact .body listed textRead
    · exact .marked listed describes
  · intro mentions
    cases mentions with
    | returned again returns =>
      cases parts.descriptor.symm.trans again
      simp [returns]
    | parameter again takes =>
      cases parts.descriptor.symm.trans again
      simp [takes]
    | thrown listed textRead => grind
    | accessOwner listed textRead => grind
    | body listed textRead => grind
    | marked listed describes => grind

/-- The types of a record are those that stand in it. -/
theorem RecordTypes.mem_mentions_iff {record : ClassRecord} {types : RecordTypes}
    (read : RecordTypes.ofRecord record = .ok types) {type : TypeName} :
    type ∈ types.mentions ↔ record.Mentions type := by
  have parts := readFrom_of_read read
  simp only [mentions, List.mem_append, List.mem_flatMap, mem_toList_read_iff parts.superclass,
    mem_read_iff parts.interfaces, mem_toList_read_iff parts.enclosing,
    mem_annotationMentions_iff parts.annotations,
    exists_mem_read_iff parts.fields fun _ _ fieldRead => FieldTypes.mem_mentions_iff fieldRead,
    exists_mem_read_iff parts.methods fun _ _ methodRead => MethodTypes.mem_mentions_iff methodRead]
  constructor
  · rintro (((((⟨_, given, textRead⟩ | ⟨_, listed, textRead⟩) | ⟨_, inside, textRead⟩) |
      ⟨_, listed, describes⟩) | ⟨_, listed, mentions⟩) | ⟨_, listed, mentions⟩)
    · exact .supertype (by simp [ClassRecord.supertypes, given]) textRead
    · exact .supertype (by simp [ClassRecord.supertypes, listed]) textRead
    · exact .enclosing inside textRead
    · exact .marked listed describes
    · exact .field listed mentions
    · exact .method listed mentions
  · intro mentions
    cases mentions with
    | supertype listed textRead =>
      simp only [ClassRecord.supertypes, List.mem_append, Option.mem_toList] at listed
      grind
    | enclosing inside textRead => grind
    | marked listed describes => grind
    | field listed mentions => grind
    | method listed mentions => grind

end ClassAtlas
