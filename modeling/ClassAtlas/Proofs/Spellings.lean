import ClassAtlas.Proofs.ClassNames

/-!
# Spellings of one type

A type that was read has three spellings of its own: the binary name, the source name and the
descriptor. They are read by four readers that go about it in different ways. One strips the
opening brackets of an array all at once, one strips closing pairs from the end, and one takes a
descriptor off the front of a text, bracket by bracket. Here it is shown that each of them, given
its spelling of a type, comes back to that type.

The types that are read at all are regular: class names are dotted and free of punctuation, and
nothing is an array of `void`. One thing is not told apart by all spellings: a class whose name is
the keyword of a primitive type. Descriptors keep it apart from that type, plain names do not.
-/

namespace ClassAtlas

namespace Name

/-- Letters are split at the first separator. -/
theorem splitFirst_append {separator : Char} {before : List Char} (absent : separator ∉ before)
    (after : List Char) :
    splitFirst separator (before ++ separator :: after) = some (before, after) := by
  induction before with
  | nil => simp [splitFirst]
  | cons letter rest inductionHypothesis =>
    rw [List.mem_cons, not_or] at absent
    rw [List.cons_append, splitFirst, if_neg (Ne.symm absent.1), inductionHypothesis absent.2]
    rfl

/-- Slashes for dots and back give a dotted text again. -/
theorem respell_respell {letters : List Char} (dotted : '/' ∉ letters) :
    respell '/' '.' (respell '.' '/' letters) = letters := by
  rw [respell, respell, List.map_map]
  refine (List.map_congr_left fun letter listed => ?_).trans (List.map_id letters)
  by_cases isDot : letter = '.'
  · simp [isDot]
  · have notSlash : letter ≠ '/' := fun isSlash => dotted (isSlash ▸ listed)
    simp [isDot, notSlash]

/-- Respelling takes no letter away but the old one. -/
theorem mem_respell_of_mem {old new letter : Char} {letters : List Char}
    (listed : letter ∈ letters) (different : letter ≠ old) : letter ∈ respell old new letters :=
  List.mem_map.mpr ⟨letter, listed, if_neg different⟩

/-- Respelling brings no letter in but the new one. -/
theorem mem_of_mem_respell {old new letter : Char} {letters : List Char}
    (listed : letter ∈ respell old new letters) (different : letter ≠ new) : letter ∈ letters := by
  obtain ⟨source, isSource, same⟩ := List.mem_map.mp listed
  split at same
  · exact absurd same.symm different
  · exact same ▸ isSource

end Name

/-- A keyword holds no punctuation. -/
theorem Primitive.ofKeyword?_eq_none_of_mem {text : String} {letter : Char}
    (listed : letter ∈ text.toList) (isPunctuation : letter ∈ TypeName.punctuation) :
    ofKeyword? text = none := by
  have plain (kind : Primitive) :
      ∀ letter ∈ kind.keyword.toList, letter ∉ TypeName.punctuation := by
    cases kind <;> simp [keyword, TypeName.punctuation]
  cases found : ofKeyword? text with
  | none => rfl
  | some kind =>
    rw [← ofKeyword?_eq_some_iff.mp found] at listed
    exact absurd isPunctuation (plain kind letter listed)

namespace TypeName

/-! ## Types that are read -/

/-- A type as it can be read: its class has a proper name, and it is no array of `void`. -/
def Regular : TypeName → Prop
  | primitive _ => True
  | object name => Proper name
  | array component => component ≠ primitive .void ∧ component.Regular

/-- An array of a regular type other than `void` is regular. -/
theorem regular_arrayOf {element : TypeName} (regular : element.Regular)
    (notVoid : element ≠ primitive .void) (count : Nat) :
    (element.arrayOf count).Regular ∧ element.arrayOf count ≠ primitive .void := by
  induction count with
  | zero => exact ⟨regular, notVoid⟩
  | succ count inductionHypothesis =>
    refine ⟨⟨inductionHypothesis.2, inductionHypothesis.1⟩, ?_⟩
    simp [arrayOf]

/-- Class names are read as regular types. -/
theorem regular_of_ofObjectName {letters : List Char} {type : TypeName}
    (read : ofObjectName letters = .ok type) : type.Regular ∧ type ≠ primitive .void := by
  obtain ⟨name, rfl, proper, _⟩ := proper_of_ofObjectName read
  exact ⟨proper, by simp⟩

/-- Binary names of arrays are read as regular types. -/
theorem regular_of_ofBinaryArray {letters : List Char} {type : TypeName}
    (read : ofBinaryArray letters = .ok type) : type.Regular := by
  obtain ⟨element, inner, rfl⟩ := map_eq_ok_iff.mp read
  have regular : element.Regular ∧ element ≠ primitive .void := by
    rw [ofArrayElement] at inner
    split at inner
    · simp at inner
    · rename_i kind notVoid _
      cases inner
      exact ⟨trivial, by simpa using notVoid⟩
    · split at inner
      · exact regular_of_ofObjectName inner
      · simp at inner
  exact (regular_arrayOf regular.1 regular.2 _).1

/-- Source names of arrays are read as regular types. -/
theorem regular_of_ofSourceArray {raw : String} {type : TypeName}
    (read : ofSourceArray raw = .ok type) : type.Regular := by
  simp only [ofSourceArray] at read
  split at read
  · simp at read
  · split at read
    · simp at read
    · rename_i kind notVoid _
      cases read
      have regular : (primitive kind).Regular := trivial
      exact (regular_arrayOf regular (by simpa using notVoid) _).1
    · obtain ⟨element, inner, rfl⟩ := map_eq_ok_iff.mp read
      obtain ⟨regular, notVoid⟩ := regular_of_ofObjectName inner
      exact (regular_arrayOf regular notVoid _).1

/-- Class names are read into regular types. -/
theorem regular_of_ofClassName {raw : String} {type : TypeName}
    (read : ofClassName raw = .ok type) : type.Regular := by
  rw [ofClassName] at read
  split at read
  · cases read
    trivial
  · rw [ofForm] at read
    split at read
    · simp at read
    · exact regular_of_ofBinaryArray read
    · exact regular_of_ofSourceArray read
    · exact (regular_of_ofObjectName read).1

/-! ## Brackets and elements -/

/-- A binary name has a bracket for each dimension and ends in its element. -/
theorem elementLetters_eq (type : TypeName) :
    type.elementLetters = List.replicate type.dimensions '[' ++ type.base.elementLetters := by
  induction type with
  | primitive kind => rfl
  | object name => rfl
  | array component inductionHypothesis =>
    rw [elementLetters, inductionHypothesis, base, dimensions, List.replicate_succ,
      List.cons_append]

/-- Where there are no brackets none are stripped. -/
theorem stripBrackets_of_not_mem {letters : List Char} (unbracketed : ']' ∉ letters) :
    stripBrackets letters = (0, letters) := by
  rw [stripBrackets.eq_def]
  split
  · exact absurd List.mem_cons_self unbracketed
  · rfl

/-- Stripping pairs of brackets from a source name leads to its element. -/
theorem stripBrackets_canonical {type : TypeName}
    (unbracketed : ']' ∉ type.base.canonical.toList) :
    stripBrackets type.canonical.toList.reverse =
      (type.dimensions, type.base.canonical.toList.reverse) := by
  induction type with
  | primitive kind => exact stripBrackets_of_not_mem (mt List.mem_reverse.mp unbracketed)
  | object name => exact stripBrackets_of_not_mem (mt List.mem_reverse.mp unbracketed)
  | array component inductionHypothesis =>
    have shape : (array component).canonical.toList.reverse =
        ']' :: '[' :: component.canonical.toList.reverse := by
      rw [canonical, String.toList_append, List.reverse_append]
      rfl
    rw [shape, stripBrackets, inductionHypothesis unbracketed]
    rfl

/-- The innermost element of a regular type is regular. -/
theorem Regular.base {type : TypeName} (regular : type.Regular) : type.base.Regular := by
  induction type with
  | primitive kind => exact regular
  | object name => exact regular
  | array component inductionHypothesis => exact inductionHypothesis regular.2

/-- The element of an array is not `void`. -/
theorem Regular.base_ne_void {component : TypeName} (regular : (array component).Regular) :
    component.base ≠ primitive .void := by
  induction component with
  | primitive kind => exact regular.1
  | object name => simp [TypeName.base]
  | array inner inductionHypothesis => exact inductionHypothesis regular.2

/-- A binary name is dotted and has no closing bracket. -/
theorem Regular.not_mem_elementLetters {type : TypeName} (regular : type.Regular) :
    '/' ∉ type.elementLetters ∧ ']' ∉ type.elementLetters := by
  induction type with
  | primitive kind => cases kind <;> decide
  | object name =>
    have plain : ']' ∉ name.toList := fun listed => regular.plain ']' listed (by decide)
    simp [elementLetters, regular.dotted, plain]
  | array component inductionHypothesis =>
    have inside := inductionHypothesis regular.2
    simp [elementLetters, inside.1, inside.2]

/-! ## Descriptors -/

/-- A class is read from every text that respells its name. -/
theorem ofObjectName_of_respell {name : String} (proper : Proper name) {letters : List Char}
    (same : Name.respell '/' '.' letters = name.toList) :
    ofObjectName letters = .ok (object name) := by
  have nonempty : letters ≠ [] := by
    rintro rfl
    exact proper.nonempty same.symm
  have plain : ∀ letter ∈ letters, letter ∉ punctuation := by
    intro letter listed isPunctuation
    refine proper.plain letter ?_ isPunctuation
    rw [← same]
    refine List.mem_map.mpr ⟨letter, listed, if_neg ?_⟩
    rintro rfl
    simp [punctuation] at isPunctuation
  have valid : isObjectName letters = true := by
    simpa [isObjectName, nonempty] using plain
  rw [ofObjectName, if_pos valid, same, String.ofList_toList]

/-- A descriptor has slashes where the letters of the type have dots. -/
theorem toList_descriptor (type : TypeName) :
    type.descriptor.toList = Name.respell '.' '/' type.elementLetters :=
  String.toList_ofList

/-- A bracket in front makes an array, unless of `void`. -/
theorem takeDescriptor_array {letters after : List Char} {type : TypeName}
    (notVoid : type ≠ primitive .void) (taken : takeDescriptor letters = some (type, after)) :
    takeDescriptor ('[' :: letters) = some (array type, after) := by
  rw [takeDescriptor, taken]
  split
  · rename_i same
    cases same
    exact absurd rfl notVoid
  · rename_i same
    cases same
    rfl
  · rename_i none
    cases none

/-- A descriptor is taken off the front of any text that starts with it. -/
theorem takeDescriptor_descriptor {type : TypeName} (regular : type.Regular) (rest : List Char) :
    takeDescriptor (type.descriptor.toList ++ rest) = some (type, rest) := by
  rw [toList_descriptor]
  induction type with
  | primitive kind => cases kind <;> rfl
  | object name =>
    have shape : Name.respell '.' '/' (object name).elementLetters ++ rest =
        'L' :: (Name.respell '.' '/' name.toList ++ ';' :: rest) := by
      simp [elementLetters, Name.respell]
    have absent : ';' ∉ Name.respell '.' '/' name.toList := fun listed =>
      regular.plain ';' (Name.mem_of_mem_respell listed (by decide)) (by decide)
    simp only [shape, takeDescriptor, Name.splitFirst_append absent,
      ofObjectName_of_respell regular (Name.respell_respell regular.dotted)]
    rfl
  | array component inductionHypothesis =>
    obtain ⟨notVoid, regular⟩ := regular
    have shape : Name.respell '.' '/' (array component).elementLetters ++ rest =
        '[' :: (Name.respell '.' '/' component.elementLetters ++ rest) := rfl
    rw [shape, takeDescriptor_array notVoid (inductionHypothesis regular)]

/-- Reading a descriptor gives back the type. -/
theorem ofDescriptor_descriptor {type : TypeName} (regular : type.Regular) :
    ofDescriptor type.descriptor = .ok type := by
  have taken := takeDescriptor_descriptor regular []
  rw [List.append_nil] at taken
  rw [ofDescriptor, taken]

/-! ## Array names -/

/-- The innermost element is no array. -/
theorem isArray_base (type : TypeName) : type.base.isArray = false := by
  induction type with
  | primitive kind => rfl
  | object name => rfl
  | array component inductionHypothesis => exact inductionHypothesis

/-- What is no array does not start with a bracket. -/
theorem exists_elementLetters_eq_cons {element : TypeName} (notArray : element.isArray = false) :
    ∃ first rest, element.elementLetters = first :: rest ∧ first ≠ '[' := by
  cases element with
  | primitive kind => exact ⟨kind.letter, [], rfl, by cases kind <;> decide⟩
  | object name => exact ⟨'L', name.toList ++ [';'], rfl, by decide⟩
  | array component => simp [isArray] at notArray

/-- An element is read back from its letters. -/
theorem ofArrayElement_elementLetters {element : TypeName} (regular : element.Regular)
    (notArray : element.isArray = false) (notVoid : element ≠ primitive .void) :
    ofArrayElement element.elementLetters = .ok element := by
  cases element with
  | primitive kind =>
    cases kind with
    | void => exact absurd rfl notVoid
    | _ => rfl
  | object name =>
    have notPrimitive : Primitive.ofDescriptor? (object name).elementLetters = none := by
      cases letters : name.toList with
      | nil => exact absurd letters regular.nonempty
      | cons first rest => simp [elementLetters, letters, Primitive.ofDescriptor?]
    have body : descriptorBody? (object name).elementLetters = some name.toList := by
      simp [elementLetters, descriptorBody?, Name.withoutSuffix]
    simp only [ofArrayElement, notPrimitive, body]
    exact ofObjectName_of_respell regular (respell_of_dotted regular.dotted)
  | array component => simp [isArray] at notArray

/-- Reading the binary name of an array gives back the array. -/
theorem ofBinaryArray_elementLetters {component : TypeName}
    (regular : (array component).Regular) :
    ofBinaryArray (array component).elementLetters = .ok (array component) := by
  obtain ⟨first, rest, letters, notBracket⟩ :=
    exists_elementLetters_eq_cons (isArray_base (array component))
  have isElement := ofArrayElement_elementLetters regular.base (isArray_base (array component))
    regular.base_ne_void
  rw [letters] at isElement
  have brackets : ∀ letter ∈ List.replicate (array component).dimensions '[',
      decide (letter = '[') = true := by
    intro letter listed
    exact decide_eq_true (List.eq_of_mem_replicate listed)
  rw [ofBinaryArray, elementLetters_eq, letters, List.takeWhile_append_of_pos brackets,
    List.dropWhile_append_of_pos brackets, List.takeWhile_cons_of_neg (by simpa using notBracket),
    List.dropWhile_cons_of_neg (by simpa using notBracket), isElement, List.append_nil,
    List.length_replicate, Except.map, arrayOf_base]

/-- A source name starts with a letter of its element, which is no punctuation. -/
theorem Regular.exists_canonical_eq_cons {type : TypeName} (regular : type.Regular) :
    ∃ first rest, type.canonical.toList = first :: rest ∧ first ∉ punctuation := by
  induction type with
  | primitive kind => cases kind <;> exact ⟨_, _, rfl, by decide⟩
  | object name =>
    obtain ⟨first, rest, letters⟩ := List.exists_cons_of_ne_nil regular.nonempty
    exact ⟨first, rest, letters, regular.plain first (letters ▸ List.mem_cons_self)⟩
  | array component inductionHypothesis =>
    obtain ⟨first, rest, letters, plain⟩ := inductionHypothesis regular.2
    exact ⟨first, rest ++ ['[', ']'], by simp [canonical, letters], plain⟩

/-- The canonical name of a regular type that is no array has no punctuation. -/
theorem Regular.plain_canonical {element : TypeName} (regular : element.Regular)
    (notArray : element.isArray = false) :
    ∀ letter ∈ element.canonical.toList, letter ∉ punctuation := by
  cases element with
  | primitive kind => cases kind <;> simp [canonical, Primitive.keyword, punctuation]
  | object name => exact regular.plain
  | array component => simp [isArray] at notArray

/-- A name that is no keyword is not read as one. -/
theorem ofKeyword?_of_unambiguous {name : String}
    (unambiguous : ∀ kind : Primitive, object name ≠ object kind.keyword) :
    Primitive.ofKeyword? name = none := by
  cases found : Primitive.ofKeyword? name with
  | none => rfl
  | some kind => exact absurd (by rw [Primitive.ofKeyword?_eq_some_iff.mp found]) (unambiguous kind)

/-- Reading the source name of an array gives back the array, unless the element is a class that is
named like a primitive type. -/
theorem ofSourceArray_canonical {component : TypeName} (regular : (array component).Regular)
    (unambiguous : ∀ kind : Primitive, (array component).base ≠ object kind.keyword) :
    ofSourceArray (array component).canonical = .ok (array component) := by
  have plain := regular.base.plain_canonical (isArray_base (array component))
  have unbracketed : ((array component).base.canonical.toList.any fun letter =>
      letter = '[' || letter = ']') = false := by
    rw [List.any_eq_false]
    intro letter listed isBracket
    refine plain letter listed ?_
    rcases Bool.or_eq_true_iff.mp isBracket with isOpening | isClosing
    · rw [of_decide_eq_true isOpening]
      decide
    · rw [of_decide_eq_true isClosing]
      decide
  simp only [ofSourceArray, stripBrackets_canonical (fun listed => plain ']' listed (by decide)),
    List.reverse_reverse, unbracketed, String.ofList_toList, Bool.false_eq_true, if_false]
  -- What is left of the name is read as the element.
  have whole := arrayOf_base (array component)
  have notVoid := regular.base_ne_void
  have isProper := regular.base
  cases element : (array component).base with
  | primitive kind =>
    rw [element] at whole
    have keyword : Primitive.ofKeyword? (primitive kind).canonical = some kind :=
      Primitive.ofKeyword?_eq_some_iff.mpr rfl
    rw [keyword]
    cases kind with
    | void => exact absurd element notVoid
    | _ => exact congrArg Except.ok whole
  | object name =>
    rw [element] at whole unambiguous isProper
    have read : ofObjectName name.toList = .ok (object name) :=
      ofObjectName_of_respell isProper (respell_of_dotted isProper.dotted)
    have noKeyword := ofKeyword?_of_unambiguous unambiguous
    simp only [canonical, noKeyword, read, Except.map, whole]
  | array inner =>
    have notArray := isArray_base (array component)
    simp [element, isArray] at notArray

/-! ## Whole names -/

section Forms

variable {raw : String} {plain : List Char → Except SpellingError TypeName} {first : Char}
  {rest : List Char}

/-- Letters that start otherwise open no bracket. -/
theorem isPrefixOf_eq_false (starts : raw.toList = first :: rest) (notOpening : first ≠ '[') :
    ['['].isPrefixOf raw.toList = false := by
  rw [Bool.eq_false_iff]
  intro isPrefix
  obtain ⟨tail, split⟩ := List.isPrefixOf_iff_prefix.mp isPrefix
  rw [starts] at split
  exact notOpening (List.cons.inj split).1.symm

/-- Letters without closing brackets do not end in a pair of them. -/
theorem isSuffixOf_eq_false (unclosed : ']' ∉ raw.toList) :
    ['[', ']'].isSuffixOf raw.toList = false := by
  rw [Bool.eq_false_iff]
  intro isSuffix
  exact unclosed ((List.isSuffixOf_iff_suffix.mp isSuffix).subset (by simp))

/-- A name with an opening bracket and no closing one is a binary array name. -/
theorem ofForm_of_opening (starts : raw.toList = '[' :: rest) (unclosed : ']' ∉ raw.toList) :
    ofForm raw plain = ofBinaryArray (Name.respell '/' '.' raw.toList) := by
  have opens : ['['].isPrefixOf raw.toList = true := by simp [starts]
  simp only [ofForm, opens, isSuffixOf_eq_false unclosed]

/-- A name that starts otherwise and ends in a pair of brackets is a source array name. -/
theorem ofForm_of_closing (starts : raw.toList = first :: rest) (notOpening : first ≠ '[')
    (closes : ['[', ']'] <:+ raw.toList) : ofForm raw plain = ofSourceArray raw := by
  simp only [ofForm, isPrefixOf_eq_false starts notOpening, List.isSuffixOf_iff_suffix.mpr closes]

/-- A name that starts otherwise and has no closing bracket is plain. -/
theorem ofForm_of_plain (starts : raw.toList = first :: rest) (notOpening : first ≠ '[')
    (unclosed : ']' ∉ raw.toList) : ofForm raw plain = plain raw.toList := by
  simp only [ofForm, isPrefixOf_eq_false starts notOpening, isSuffixOf_eq_false unclosed]

end Forms

variable {type : TypeName}

/-- An array is read from every text that respells its binary name. -/
theorem ofClassName_array_of_respell {component : TypeName} {raw : String}
    (regular : (array component).Regular)
    (same : Name.respell '/' '.' raw.toList = (array component).elementLetters) :
    ofClassName raw = .ok (array component) := by
  obtain ⟨_, unclosed⟩ := regular.not_mem_elementLetters
  replace unclosed : ']' ∉ raw.toList := fun listed =>
    unclosed (same ▸ Name.mem_respell_of_mem listed (by decide))
  obtain ⟨rest, letters⟩ : ∃ rest, raw.toList = '[' :: rest := by
    cases letters : raw.toList with
    | nil => simp [letters, Name.respell, elementLetters] at same
    | cons first rest =>
      rw [letters, Name.respell, List.map_cons, elementLetters, List.cons.injEq] at same
      obtain ⟨opening, _⟩ := same
      split at opening
      · exact absurd opening (by decide)
      · exact ⟨rest, by rw [opening]⟩
  have noKeyword := Primitive.ofKeyword?_eq_none_of_mem
    (letters ▸ List.mem_cons_self : '[' ∈ raw.toList) (by decide)
  rw [ofClassName, noKeyword]
  dsimp only
  rw [ofForm_of_opening letters unclosed, same, ofBinaryArray_elementLetters regular]

/-- A binary name is read as its type, unless that is a class that is named like a primitive
type. -/
theorem ofClassName_name (regular : type.Regular)
    (unambiguous : ∀ kind : Primitive, type.base ≠ object kind.keyword) :
    ofClassName type.name = .ok type := by
  cases type with
  | primitive kind => rw [ofClassName, name, Primitive.ofKeyword?_eq_some_iff.mpr rfl]
  | object name => exact ofClassName_of_proper regular (ofKeyword?_of_unambiguous unambiguous)
  | array component =>
    have letters : (array component).name.toList = (array component).elementLetters :=
      String.toList_ofList
    apply ofClassName_array_of_respell regular
    rw [letters, respell_of_dotted regular.not_mem_elementLetters.1]

/-- So is a source name. -/
theorem ofClassName_canonical (regular : type.Regular)
    (unambiguous : ∀ kind : Primitive, type.base ≠ object kind.keyword) :
    ofClassName type.canonical = .ok type := by
  cases type with
  | primitive kind => exact ofClassName_name regular unambiguous
  | object name => exact ofClassName_name regular unambiguous
  | array component =>
    obtain ⟨first, rest, starts, plain⟩ := regular.exists_canonical_eq_cons
    have closes : ['[', ']'] <:+ (array component).canonical.toList :=
      ⟨component.canonical.toList, by simp [canonical]⟩
    have noKeyword : Primitive.ofKeyword? (array component).canonical = none :=
      Primitive.ofKeyword?_eq_none_of_mem (closes.subset List.mem_cons_self) (by decide)
    have notOpening : first ≠ '[' := by
      rintro rfl
      exact plain (by decide)
    rw [ofClassName, noKeyword]
    dsimp only
    rw [ofForm_of_closing starts notOpening closes, ofSourceArray_canonical regular unambiguous]

/-- Several letters with punctuation among them are no primitive type, so that they are read by
their form. -/
theorem parse_of_long {raw : String} {letter : Char} (long : 1 < raw.toList.length)
    (listed : letter ∈ raw.toList) (isPunctuation : letter ∈ punctuation) :
    parse raw =
      ofForm raw fun letters => ofObjectName ((descriptorBody? letters).getD letters) := by
  have nonempty : raw.toList.isEmpty ≠ true := by
    intro isEmpty
    simp [List.isEmpty_iff.mp isEmpty] at long
  have noLetter : Primitive.ofDescriptor? raw.toList = none := by
    match raw.toList, long with
    | _ :: _ :: _, _ => rfl
  have notPrimitive : Primitive.ofText? raw = none := by
    rw [Primitive.ofText?, Primitive.ofKeyword?_eq_none_of_mem listed isPunctuation, noLetter]
    rfl
  rw [parse, if_neg nonempty, notPrimitive]

/-- A descriptor is read as its type, whatever that is. -/
theorem parse_descriptor (regular : type.Regular) : parse type.descriptor = .ok type := by
  have letters := toList_descriptor type
  obtain ⟨dotted, unclosed⟩ := regular.not_mem_elementLetters
  replace unclosed : ']' ∉ type.descriptor.toList := fun listed =>
    unclosed (Name.mem_of_mem_respell (letters ▸ listed) (by decide))
  cases type with
  | primitive kind => cases kind <;> rfl
  | object name =>
    have shape : (object name).descriptor.toList =
        'L' :: (Name.respell '.' '/' name.toList ++ [';']) := by
      simp [letters, elementLetters, Name.respell]
    have body : descriptorBody? (object name).descriptor.toList =
        some (Name.respell '.' '/' name.toList) := by
      simp [shape, descriptorBody?, Name.withoutSuffix]
    rw [parse_of_long (by simp [shape]) (by simp [shape]) (show ';' ∈ punctuation by decide),
      ofForm_of_plain shape (by decide) unclosed, body]
    exact ofObjectName_of_respell regular (Name.respell_respell regular.dotted)
  | array component =>
    have shape : (array component).descriptor.toList =
        '[' :: Name.respell '.' '/' component.elementLetters := letters
    have long : 1 < (array component).descriptor.toList.length := by
      cases component <;> simp [shape, elementLetters, Name.respell]
    rw [parse_of_long long (by simp [shape]) (show '[' ∈ punctuation by decide),
      ofForm_of_opening shape unclosed, letters, Name.respell_respell dotted,
      ofBinaryArray_elementLetters regular]

/-- Whatever a class name is read as, the type is read again from its binary name, from its source
name, and from its descriptor in both ways, unless its element is a class that is named like a
primitive type. -/
theorem ofClassName_respelled {raw : String} (read : ofClassName raw = .ok type)
    (unambiguous : ∀ kind : Primitive, type.base ≠ object kind.keyword) :
    ofClassName type.name = .ok type ∧ ofClassName type.canonical = .ok type ∧
      parse type.descriptor = .ok type ∧ ofDescriptor type.descriptor = .ok type := by
  have regular := regular_of_ofClassName read
  exact ⟨ofClassName_name regular unambiguous, ofClassName_canonical regular unambiguous,
    parse_descriptor regular, ofDescriptor_descriptor regular⟩

/-- The source name of an array, with a slash, whose class is called like the letter of a primitive
type. -/
theorem ofClassName_respelled_letter :
    ofClassName "a/I[][]" = .ok (array (array (object "a.I"))) ∧
      (∀ kind : Primitive, object "a.I" ≠ object kind.keyword) ∧
      ofClassName "[[La.I;" = .ok (array (array (object "a.I"))) ∧
      ofClassName "a.I[][]" = .ok (array (array (object "a.I"))) ∧
      parse "[[La/I;" = .ok (array (array (object "a.I"))) ∧
      ofDescriptor "[[La/I;" = .ok (array (array (object "a.I"))) := by
  have read : ofClassName "a/I[][]" = .ok (array (array (object "a.I"))) := by rfl
  have unambiguous (kind : Primitive) : object "a.I" ≠ object kind.keyword := by
    cases kind <;> decide
  exact ⟨read, unambiguous, ofClassName_respelled read unambiguous⟩

end TypeName

end ClassAtlas
