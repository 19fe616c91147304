import ClassAtlas.ClassFile.AnnotationTable
import ClassAtlas.Proofs.Encoding

/-!
# Annotations as they are written

A table of annotations is written from front to back. Texts and literals are given by numbers of
the constant pool, where a constant may stand under several numbers; values are led by a tag, lists
by their count. A table can be written whenever the pool holds what it needs and no list in it is
too long for its count.

Whatever numbers were chosen, reading gives back the annotations. The reader is bounded in depth by
the number of bytes; each level of nesting has a tag of its own, so the bound is never met.
-/

namespace ClassAtlas

/-- The constant that stands for a literal. Small numbers are widened, a character is its code
point, and truth is one. -/
def Literal.constant : Literal → ClassFile.Constant
  | byte value => .integer value.toInt32
  | char value => .integer value.val.toInt32
  | short value => .integer value.toInt32
  | int value => .integer value
  | long value => .long value
  | float bits => .float bits
  | double bits => .double bits
  | boolean value => .integer (if value then 1 else 0)
  | string value => .text value

/-- The letter of a literal's kind. -/
def Literal.tag : Literal → Char
  | byte _ => 'B'
  | char _ => 'C'
  | short _ => 'S'
  | int _ => 'I'
  | long _ => 'J'
  | float _ => 'F'
  | double _ => 'D'
  | boolean _ => 'Z'
  | string _ => 's'

namespace ClassFile

/-- A number stands for a literal. -/
def ConstantPool.HoldsLiteral (pool : ConstantPool) (index : UInt16) (literal : Literal) : Prop :=
  pool.entries[index.toNat]? = some literal.constant

namespace AnnotationTable

/-- A tag is the byte of its letter. -/
def tagByte (letter : Char) : UInt8 := .ofNat letter.toNat

section Written

variable (pool : ConstantPool)

mutual

/-- The bytes of an annotation: its type and its elements with their count. -/
inductive AnnotationWritten : AnnotationRecord → List UInt8 → Prop
  | mk {type : String} {elements : List (Element String String)} {index : UInt16}
    {inside : List UInt8} (named : pool.HoldsText index type)
    (few : elements.length < 0x10000) (written : ElementsWritten elements inside) :
    AnnotationWritten (.mk type elements)
      (bytes16 index ++ (bytes16 (.ofNat elements.length) ++ inside))

/-- The bytes of elements, each a name and a value. -/
inductive ElementsWritten : List (Element String String) → List UInt8 → Prop
  | nil : ElementsWritten [] []
  | cons {name : String} {value : Value} {rest : List (Element String String)} {index : UInt16}
    {first later : List UInt8} (named : pool.HoldsText index name)
    (written : ValueWritten value first) (others : ElementsWritten rest later) :
    ElementsWritten (.mk name value :: rest) (bytes16 index ++ first ++ later)

/-- The bytes of a value: a tag and what it announces. -/
inductive ValueWritten : Value → List UInt8 → Prop
  | literal {literal : Literal} {index : UInt16} (holds : pool.HoldsLiteral index literal) :
    ValueWritten (.literal literal) (tagByte literal.tag :: bytes16 index)
  | enumConstant {type constant : String} {typeIndex index : UInt16}
    (named : pool.HoldsText typeIndex type) (holds : pool.HoldsText index constant) :
    ValueWritten (.enumConstant type constant) (tagByte 'e' :: (bytes16 typeIndex ++ bytes16 index))
  | classLiteral {type : String} {index : UInt16} (named : pool.HoldsText index type) :
    ValueWritten (.classLiteral type) (tagByte 'c' :: bytes16 index)
  | nested {value : AnnotationRecord} {inside : List UInt8}
    (written : AnnotationWritten value inside) :
    ValueWritten (.nested value) (tagByte '@' :: inside)
  | array {values : List Value} {inside : List UInt8} (few : values.length < 0x10000)
    (written : ValuesWritten values inside) :
    ValueWritten (.array values) (tagByte '[' :: (bytes16 (.ofNat values.length) ++ inside))

/-- The bytes of values one after the other. -/
inductive ValuesWritten : List Value → List UInt8 → Prop
  | nil : ValuesWritten [] []
  | cons {value : Value} {rest : List Value} {first later : List UInt8}
    (written : ValueWritten value first) (others : ValuesWritten rest later) :
    ValuesWritten (value :: rest) (first ++ later)

end

/-- The bytes of annotations one after the other. -/
inductive AnnotationsWritten : List AnnotationRecord → List UInt8 → Prop
  | nil : AnnotationsWritten [] []
  | cons {mark : AnnotationRecord} {rest : List AnnotationRecord} {first later : List UInt8}
    (written : AnnotationWritten pool mark first) (others : AnnotationsWritten rest later) :
    AnnotationsWritten (mark :: rest) (first ++ later)

/-- The bytes of a table: the annotations with their count. -/
inductive TableWritten : List AnnotationRecord → List UInt8 → Prop
  | mk {marks : List AnnotationRecord} {inside : List UInt8} (few : marks.length < 0x10000)
    (written : AnnotationsWritten pool marks inside) :
    TableWritten marks (bytes16 (.ofNat marks.length) ++ inside)

mutual

/-- The pool holds what an annotation needs, and no list in it is too long. -/
def AnnotationWritable : AnnotationRecord → Prop
  | .mk type elements => (∃ index, pool.HoldsText index type) ∧ elements.length < 0x10000 ∧
    ElementsWritable elements

/-- The same for elements. -/
def ElementsWritable : List (Element String String) → Prop
  | [] => True
  | .mk name value :: rest => (∃ index, pool.HoldsText index name) ∧ ValueWritable value ∧
    ElementsWritable rest

/-- The same for a value. -/
def ValueWritable : Value → Prop
  | .literal literal => ∃ index, pool.HoldsLiteral index literal
  | .enumConstant type constant => (∃ index, pool.HoldsText index type) ∧
    ∃ index, pool.HoldsText index constant
  | .classLiteral type => ∃ index, pool.HoldsText index type
  | .nested value => AnnotationWritable value
  | .array values => values.length < 0x10000 ∧ ValuesWritable values

/-- The same for values. -/
def ValuesWritable : List Value → Prop
  | [] => True
  | value :: rest => ValueWritable value ∧ ValuesWritable rest

end

/-- The pool holds what a table needs, and no list in it is too long, nor the table itself. -/
def TableWritable (marks : List AnnotationRecord) : Prop :=
  marks.length < 0x10000 ∧ ∀ mark ∈ marks, AnnotationWritable pool mark

end Written

variable {pool : ConstantPool}

/-! ## What can be written -/

mutual

/-- An annotation whose texts and values the pool holds can be written. -/
theorem exists_annotationWritten :
    ∀ mark : AnnotationRecord, AnnotationWritable pool mark →
      ∃ bytes, AnnotationWritten pool mark bytes
  | .mk _ elements, ⟨⟨_, named⟩, few, writable⟩ => by
    obtain ⟨_, written⟩ := exists_elementsWritten elements writable
    exact ⟨_, .mk named few written⟩

/-- The same holds for elements, one after the other. -/
theorem exists_elementsWritten :
    ∀ elements : List (Element String String), ElementsWritable pool elements →
      ∃ bytes, ElementsWritten pool elements bytes
  | [], _ => ⟨_, .nil⟩
  | .mk _ value :: rest, ⟨⟨_, named⟩, writable, others⟩ => by
    obtain ⟨_, written⟩ := exists_valueWritten value writable
    obtain ⟨_, later⟩ := exists_elementsWritten rest others
    exact ⟨_, .cons named written later⟩

/-- The same holds for a value, by its kind. -/
theorem exists_valueWritten :
    ∀ value : Value, ValueWritable pool value → ∃ bytes, ValueWritten pool value bytes
  | .literal _, ⟨_, holds⟩ => ⟨_, .literal holds⟩
  | .enumConstant _ _, ⟨⟨_, named⟩, _, holds⟩ => ⟨_, .enumConstant named holds⟩
  | .classLiteral _, ⟨_, named⟩ => ⟨_, .classLiteral named⟩
  | .nested value, writable => by
    obtain ⟨_, written⟩ := exists_annotationWritten value writable
    exact ⟨_, .nested written⟩
  | .array values, ⟨few, writable⟩ => by
    obtain ⟨_, written⟩ := exists_valuesWritten values writable
    exact ⟨_, .array few written⟩

/-- The same holds for values, one after the other. -/
theorem exists_valuesWritten :
    ∀ values : List Value, ValuesWritable pool values → ∃ bytes, ValuesWritten pool values bytes
  | [], _ => ⟨_, .nil⟩
  | value :: rest, ⟨writable, others⟩ => by
    obtain ⟨_, written⟩ := exists_valueWritten value writable
    obtain ⟨_, later⟩ := exists_valuesWritten rest others
    exact ⟨_, .cons written later⟩

end

/-- Annotations that can be written one by one can be written as a list. -/
theorem exists_annotationsWritten {marks : List AnnotationRecord}
    (writable : ∀ mark ∈ marks, AnnotationWritable pool mark) :
    ∃ bytes, AnnotationsWritten pool marks bytes := by
  induction marks with
  | nil => exact ⟨_, .nil⟩
  | cons mark rest inductionHypothesis =>
    obtain ⟨first, others⟩ := List.forall_mem_cons.mp writable
    obtain ⟨_, written⟩ := exists_annotationWritten mark first
    obtain ⟨_, later⟩ := inductionHypothesis others
    exact ⟨_, .cons written later⟩

/-! ## Reading what was written -/

section Literals

variable {index : UInt16}

/-- The constant that stands for a literal gives the value that is asked for. -/
theorem constantOf_eq {α : Type} {expected : ConstantKind} {value? : Constant → Option α}
    {value : α} {literal : Literal} (holds : pool.HoldsLiteral index literal)
    (isValue : value? literal.constant = some value) :
    constantOf expected value? pool index = .ok value := by
  have usable : literal.constant ≠ .unusable := by cases literal <;> simp [Literal.constant]
  simp only [constantOf, ConstantPool.get_eq holds usable, bind, Except.bind, isValue]
  rfl

/-- A character is found again by its code point. -/
theorem character_toInt32 (letter : Char) : character letter.val.toInt32 = .ok letter := by
  have same : letter.val.toInt32.toUInt32 = letter.val := rfl
  rw [character, dif_pos (same ▸ letter.valid)]
  rfl

/-- A literal is read from the constant that stands for it. -/
theorem reads_literal {literal : Literal} (holds : pool.HoldsLiteral index literal) (depth : Nat) :
    Reads (elementValue pool (depth + 1)) (tagByte literal.tag :: bytes16 index)
      (.literal literal) := by
  refine .bind (.u1 _) ?_
  cases literal with
  | byte value =>
    refine .andThen (.u2 index) (.after (.lift (constantOf_eq holds rfl)) ?_)
    rw [Int8.toInt8_toInt32]
    exact .pure _
  | char value =>
    refine .andThen (.u2 index) (.after (.lift (constantOf_eq holds rfl)) ?_)
    exact .after (.lift (character_toInt32 value)) (.pure _)
  | short value =>
    refine .andThen (.u2 index) (.after (.lift (constantOf_eq holds rfl)) ?_)
    rw [Int16.toInt16_toInt32]
    exact .pure _
  | int value => exact .andThen (.u2 index) (.after (.lift (constantOf_eq holds rfl)) (.pure _))
  | long value => exact .andThen (.u2 index) (.after (.lift (constantOf_eq holds rfl)) (.pure _))
  | float bits => exact .andThen (.u2 index) (.after (.lift (constantOf_eq holds rfl)) (.pure _))
  | double bits => exact .andThen (.u2 index) (.after (.lift (constantOf_eq holds rfl)) (.pure _))
  | boolean value =>
    refine .andThen (.u2 index) (.after (.lift (constantOf_eq holds rfl)) ?_)
    cases value with
    | false => exact .pure _
    | true => exact .pure _
  | string value =>
    have read := ConstantPool.stringConstant_of_text holds
    exact .andThen (.u2 index) (.after (.lift read) (.pure _))

end Literals

/-- An element is read as its name and then its value. -/
theorem reads_element {name : String} {value : Value} {index : UInt16} {bytes : List UInt8}
    {step : Decoder Value} (named : pool.HoldsText index name) (reads : Reads step bytes value) :
    Reads (do
      let name ← pool.text (← Decoder.u2)
      return Element.mk name (← step)) (bytes16 index ++ bytes) (Element.mk name value) :=
  .bind (.u2 index) (.after (.lift (ConstantPool.text_eq named)) (.andThen reads (.pure _)))

/-!
A value is read at every depth that is no less than the number of its bytes. The tag in front of
what is nested makes up for the level that it takes.
-/

mutual

/-- A written annotation is read back, if values may be nested as deep as there are bytes. -/
theorem AnnotationWritten.reads {mark : AnnotationRecord} {bytes : List UInt8} :
    ∀ depth, AnnotationWritten pool mark bytes → bytes.length ≤ depth →
      Reads (annotationUse pool (elementValue pool depth)) bytes mark
  | depth, .mk named few written, enough => by
    simp only [List.length_append] at enough
    have inside := written.reads depth (by omega)
    refine .bind (.u2 _) (.after (.lift (ConstantPool.text_eq named)) ?_)
    exact .andThen (.counted_of_times few inside) (.pure _)

/-- The same for elements. -/
theorem ElementsWritten.reads {elements : List (Element String String)} {bytes : List UInt8} :
    ∀ depth, ElementsWritten pool elements bytes → bytes.length ≤ depth →
      Reads (Decoder.times (do
        let name ← pool.text (← Decoder.u2)
        return Element.mk name (← elementValue pool depth)) elements.length) bytes elements
  | _, .nil, _ => .pure _
  | depth, .cons named written others, enough => by
    simp only [List.length_append] at enough
    have first := written.reads depth (by omega)
    have later := others.reads depth (by omega)
    exact .bind (reads_element named first) (.andThen later (.pure _))

/-- The same for a value. Each level of nesting takes a byte for its tag, so that the bound is not
met. -/
theorem ValueWritten.reads {value : Value} {bytes : List UInt8} :
    ∀ depth, ValueWritten pool value bytes → bytes.length ≤ depth →
      Reads (elementValue pool depth) bytes value
  -- There is no value without a tag.
  | 0, written, enough => by cases written <;> simp at enough
  | depth + 1, .literal holds, _ => reads_literal holds depth
  | depth + 1, .enumConstant named holds, _ => by
    refine .bind (.u1 _) (.bind (.u2 _) (.after (.lift (ConstantPool.text_eq named)) ?_))
    exact .andThen (.u2 _) (.after (.lift (ConstantPool.text_eq holds)) (.pure _))
  | depth + 1, .classLiteral named, _ => by
    refine .bind (.u1 _) (.andThen (.u2 _) ?_)
    exact .after (.lift (ConstantPool.text_eq named)) (.pure _)
  | depth + 1, .nested written, enough => by
    have inside := written.reads depth (Nat.le_of_succ_le_succ enough)
    exact .bind (.u1 _) (.andThen inside (.pure _))
  | depth + 1, .array few written, enough => by
    simp only [List.length_cons, List.length_append] at enough
    have inside := written.reads depth (by omega)
    exact .bind (.u1 _) (.andThen (.counted_of_times few inside) (.pure _))

/-- The same for values. -/
theorem ValuesWritten.reads {values : List Value} {bytes : List UInt8} :
    ∀ depth, ValuesWritten pool values bytes → bytes.length ≤ depth →
      Reads (Decoder.times (elementValue pool depth) values.length) bytes values
  | _, .nil, _ => .pure _
  | depth, .cons written others, enough => by
    rw [List.length_append] at enough
    have first := written.reads depth (by omega)
    have later := others.reads depth (by omega)
    exact .bind first (.andThen later (.pure _))

end

/-- Written annotations are read back one after the other. -/
theorem AnnotationsWritten.reads {marks : List AnnotationRecord} {bytes : List UInt8} {depth : Nat}
    (written : AnnotationsWritten pool marks bytes) (enough : bytes.length ≤ depth) :
    Reads (Decoder.times (annotationUse pool (elementValue pool depth)) marks.length) bytes
      marks := by
  induction written with
  | nil => exact .pure _
  | cons written _ inductionHypothesis =>
    rw [List.length_append] at enough
    have first := written.reads depth (by omega)
    exact .bind first (.andThen (inductionHypothesis (by omega)) (.pure _))

/-- Every table that the pool has the constants for can be written; and however it was written,
reading gives back the annotations and takes just the bytes of the table. -/
theorem decode_table_written (pool : ConstantPool) (marks : List AnnotationRecord) :
    (TableWritable pool marks → ∃ bytes, TableWritten pool marks bytes) ∧
      ∀ bytes, TableWritten pool marks bytes → Reads (decode pool) bytes marks := by
  constructor
  · rintro ⟨few, writable⟩
    obtain ⟨_, written⟩ := exists_annotationsWritten writable
    exact ⟨_, .mk few written⟩
  · rintro _ ⟨few, written⟩ rest
    refine Reads.counted_of_times few (written.reads ?_) rest
    simp only [List.length_append]
    omega

/-- A pool with two texts and two numbers. -/
def markedPool : ConstantPool :=
  { entries := #[.unusable, .text "LA;", .text "v", .integer (-1), .integer 0x10FFFF] }

/-- An annotation with an array of numbers and of another annotation. -/
def nestedMark : AnnotationRecord :=
  .mk "LA;" [.mk "v" (.array [.literal (.byte (-1)), .literal (.char (Char.ofNat 0x10FFFF)),
    .nested (.mk "LA;" [])])]

/-- A table of this annotation can be written, and is read back from its bytes. -/
theorem decode_table_written_nested :
    TableWritable markedPool [nestedMark] ∧ (∃ bytes, TableWritten markedPool [nestedMark] bytes) ∧
      Reads (decode markedPool)
        [0, 1, 0, 1, 0, 1, 0, 2, 91, 0, 3, 66, 0, 3, 67, 0, 4, 64, 0, 1, 0, 0] [nestedMark] := by
  have type : markedPool.HoldsText 1 "LA;" := rfl
  have name : markedPool.HoldsText 2 "v" := rfl
  have number : markedPool.HoldsLiteral 3 (.byte (-1)) := rfl
  have letter : markedPool.HoldsLiteral 4 (.char (Char.ofNat 0x10FFFF)) := rfl
  have writable : TableWritable markedPool [nestedMark] := by
    refine ⟨by decide, List.forall_mem_singleton.mpr ⟨⟨1, type⟩, by decide, ⟨2, name⟩, ?_, trivial⟩⟩
    refine ⟨by decide, ⟨3, number⟩, ⟨4, letter⟩, ?_, trivial⟩
    exact ⟨⟨1, type⟩, by decide, trivial⟩
  have inner : AnnotationWritten markedPool (.mk "LA;" []) [0, 1, 0, 0] :=
    .mk type (by decide) .nil
  have outer : AnnotationWritten markedPool nestedMark
      [0, 1, 0, 1, 0, 2, 91, 0, 3, 66, 0, 3, 67, 0, 4, 64, 0, 1, 0, 0] :=
    .mk type (by decide) (.cons name (.array (by decide)
      (.cons (.literal number) (.cons (.literal letter) (.cons (.nested inner) .nil)))) .nil)
  obtain ⟨exists_written, reads⟩ := decode_table_written markedPool [nestedMark]
  exact ⟨writable, exists_written writable, reads _ (.mk (by decide) (.cons outer .nil))⟩

end AnnotationTable

end ClassFile

end ClassAtlas
