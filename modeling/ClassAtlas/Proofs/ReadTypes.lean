import ClassAtlas.Proofs.DescriptorGrammar
import ClassAtlas.Proofs.LinkedClasses

/-!
# Types that are read

Types come from four readers: of class names, of any spelling, of field descriptors and of method
descriptors. Whichever a type comes from, it is regular, and all types that linking meets come from
one of them. An array that is read from a text with brackets in front has that text for a name, up
to dots for slashes: what is taken apart into component types is put together again by the name.
-/

namespace ClassAtlas

/-- What stands before a suffix makes up the text together with it. -/
theorem Name.eq_of_withoutSuffix {ending letters front : List Char}
    (found : withoutSuffix ending letters = some front) : letters = front ++ ending := by
  rw [withoutSuffix] at found
  split at found
  · rename_i ends
    obtain ⟨before, rfl⟩ := List.isSuffixOf_iff_suffix.mp ends
    simpa [eq_comm] using found
  · cases found

/-- A primitive type is described by its letter alone. -/
theorem Primitive.eq_of_ofDescriptor? {letters : List Char} {kind : Primitive}
    (found : ofDescriptor? letters = some kind) : letters = [kind.letter] := by
  rw [ofDescriptor?.eq_def] at found
  split at found
  · rw [ofLetter?_eq_some_iff.mp found]
  · cases found

namespace TypeName

/-- A type that one of the readers gives for some text. -/
inductive IsRead : TypeName → Prop
  | className {raw : String} {type : TypeName} (read : ofClassName raw = .ok type) : IsRead type
  | spelling {raw : String} {type : TypeName} (read : parse raw = .ok type) : IsRead type
  | descriptor {raw : String} {type : TypeName} (read : ofDescriptor raw = .ok type) : IsRead type
  | parameter {raw : String} {descriptor : MethodDescriptor} {type : TypeName}
      (read : MethodDescriptor.parse raw = .ok descriptor)
      (takes : type ∈ descriptor.parameters) : IsRead type
  | returned {raw : String} {descriptor : MethodDescriptor}
      (read : MethodDescriptor.parse raw = .ok descriptor) : IsRead descriptor.returnType

/-- Any spelling is read into a regular type. -/
theorem regular_of_parse {raw : String} {type : TypeName} (read : parse raw = .ok type) :
    type.Regular := by
  rw [parse] at read
  split at read
  · cases read
  · split at read
    · cases read
      trivial
    · rw [ofForm] at read
      split at read
      · cases read
      · exact regular_of_ofBinaryArray read
      · exact regular_of_ofSourceArray read
      · exact (regular_of_ofObjectName read).1

/-- What is taken from the front of a descriptor is regular. -/
theorem regular_of_takeDescriptor {letters after : List Char} {type : TypeName}
    (taken : takeDescriptor letters = some (type, after)) : type.Regular := by
  obtain ⟨_, _, describes⟩ := describes_of_takeDescriptor taken
  exact describes.regular

end TypeName

/-- Each parameter was taken off as a descriptor. -/
theorem MethodDescriptor.exists_taken_of_mem {letters after : List Char} {types : List TypeName}
    (taken : takeParameters letters = some (types, after)) {type : TypeName}
    (listed : type ∈ types) :
    ∃ front back, TypeName.takeDescriptor front = some (type, back) := by
  fun_induction takeParameters letters generalizing types after with
  | case1 => simp at taken
  | case2 rest =>
    cases taken
    simp at listed
  | case3 => simp at taken
  | case4 => simp at taken
  | case5 others _ _ first rest found _ inductionHypothesis =>
    obtain ⟨⟨later, tail⟩, laterTaken, same⟩ := Option.map_eq_some_iff.mp taken
    cases same
    rcases List.mem_cons.mp listed with rfl | isLater
    · exact ⟨others, rest, found⟩
    · exact inductionHypothesis laterTaken isLater

namespace TypeName

/-- Every type that is read is regular. -/
theorem IsRead.regular {type : TypeName} (isRead : type.IsRead) : type.Regular := by
  cases isRead with
  | className read => exact regular_of_ofClassName read
  | spelling read => exact regular_of_parse read
  | descriptor read => exact (describes_of_ofDescriptor read).regular
  | parameter read takes =>
    obtain ⟨_, _, _, parametersTaken, _⟩ := MethodDescriptor.taken_of_parse read
    obtain ⟨_, _, taken⟩ := MethodDescriptor.exists_taken_of_mem parametersTaken takes
    exact regular_of_takeDescriptor taken
  | returned read =>
    obtain ⟨_, _, _, _, returnTaken⟩ := MethodDescriptor.taken_of_parse read
    exact regular_of_takeDescriptor returnTaken

/-! ## Names as they were written -/

/-- The spelling inside array names is the descriptor with dots. -/
theorem Regular.elementLetters_eq_dotted {type : TypeName} (regular : type.Regular) :
    type.elementLetters = (Name.dotted type.descriptor).toList := by
  rw [Name.dotted, String.toList_ofList, toList_descriptor,
    Name.respell_respell regular.not_mem_elementLetters.1]

/-- The descriptor of an array opens a bracket for each dimension. -/
theorem elementLetters_arrayOf (element : TypeName) (count : Nat) :
    (element.arrayOf count).elementLetters =
      List.replicate count '[' ++ element.elementLetters := by
  induction count with
  | zero => rfl
  | succ count inductionHypothesis =>
    rw [arrayOf, elementLetters, inductionHypothesis, List.replicate_succ, List.cons_append]

/-- A class name was found between `L` and `;`. -/
theorem eq_of_descriptorBody? {letters name : List Char}
    (found : descriptorBody? letters = some name) : letters = 'L' :: (name ++ [';']) := by
  rw [descriptorBody?.eq_def] at found
  split at found
  · rw [Name.eq_of_withoutSuffix found]
  · cases found

/-- An element with dots is read as what is spelled so. -/
theorem elementLetters_of_ofArrayElement {letters : List Char} {element : TypeName}
    (dotted : '/' ∉ letters) (read : ofArrayElement letters = .ok element) :
    element.elementLetters = letters := by
  rw [ofArrayElement] at read
  split at read
  · cases read
  · rename_i kind _ isKind
    cases read
    rw [elementLetters, Primitive.eq_of_ofDescriptor? isKind]
  · split at read
    · rename_i name isBody
      obtain rfl := eq_of_descriptorBody? isBody
      obtain ⟨object, rfl, _, named⟩ := proper_of_ofObjectName read
      rw [respell_of_dotted fun listed => dotted (by simp [listed])] at named
      rw [elementLetters, named]
    · cases read

/-- So is a binary array name. -/
theorem elementLetters_of_ofBinaryArray {letters : List Char} {type : TypeName}
    (dotted : '/' ∉ letters) (read : ofBinaryArray letters = .ok type) :
    type.elementLetters = letters := by
  obtain ⟨element, inner, rfl⟩ := map_eq_ok_iff.mp read
  have brackets : letters.takeWhile (· = '[') =
      List.replicate (letters.takeWhile (· = '[')).length '[' := by
    refine List.eq_replicate_iff.mpr ⟨rfl, fun letter listed => ?_⟩
    exact of_decide_eq_true (List.all_eq_true.mp List.all_takeWhile letter listed)
  have dottedElement : '/' ∉ letters.dropWhile (· = '[') := fun listed =>
    dotted ((List.dropWhile_suffix _).subset listed)
  rw [elementLetters_arrayOf, elementLetters_of_ofArrayElement dottedElement inner, ← brackets,
    List.takeWhile_append_dropWhile]

/-- A type that is spelled with a bracket in front is an array of that name. -/
theorem name_of_elementLetters {type : TypeName} {rest : List Char}
    (letters : type.elementLetters = '[' :: rest) : type.name = String.ofList ('[' :: rest) := by
  cases type with
  | primitive kind => cases kind <;> simp [elementLetters, Primitive.letter] at letters
  | object name => simp [elementLetters] at letters
  | array component => rw [← letters, name, elementLetters]

section Opening

variable {raw : String} {type : TypeName} (opens : raw.toList.head? = some '[')

include opens

/-- What is read from letters that open with a bracket has these letters with dots. -/
theorem elementLetters_of_ofForm {plain : List Char → Except SpellingError TypeName}
    (read : ofForm raw plain = .ok type) :
    type.elementLetters = Name.respell '/' '.' raw.toList := by
  obtain ⟨rest, letters⟩ := List.head?_eq_some_iff.mp opens
  have isPrefix : ['['].isPrefixOf raw.toList = true := by simp [letters]
  rw [ofForm, isPrefix] at read
  split at read
  · cases read
  · exact elementLetters_of_ofBinaryArray (slash_not_mem_respell _) read
  · rename_i different _
    cases different
  · rename_i different _
    cases different

/-- A type with the letters of a text that opens with a bracket has this text with dots for its
name. -/
theorem name_of_opening (letters : type.elementLetters = Name.respell '/' '.' raw.toList) :
    type.name = Name.dotted raw := by
  obtain ⟨rest, starts⟩ := List.head?_eq_some_iff.mp opens
  have opening : Name.respell '/' '.' raw.toList = '[' :: Name.respell '/' '.' rest := by
    rw [starts]
    rfl
  rw [Name.dotted, opening]
  exact name_of_elementLetters (letters.trans opening)

/-- An array that is read from a text with brackets in front has that text for a name, with
dots. -/
theorem name_of_ofClassName (read : ofClassName raw = .ok type) : type.name = Name.dotted raw := by
  have bracketed : '[' ∈ raw.toList := List.mem_of_head? opens
  rw [ofClassName, Primitive.ofKeyword?_eq_none_of_mem bracketed (by decide)] at read
  exact name_of_opening opens (elementLetters_of_ofForm opens read)

/-- A type parsed from a text that opens with a bracket has this text with dots for its name. -/
theorem name_of_parse (read : parse raw = .ok type) : type.name = Name.dotted raw := by
  have noKeyword := Primitive.ofKeyword?_eq_none_of_mem (List.mem_of_head? opens)
    (show '[' ∈ punctuation by decide)
  have noLetter : Primitive.ofDescriptor? raw.toList = none := by
    obtain ⟨rest, letters⟩ := List.head?_eq_some_iff.mp opens
    rw [letters]
    cases rest <;> rfl
  rw [parse, Primitive.ofText?, noKeyword, noLetter] at read
  split at read
  · cases read
  · exact name_of_opening opens (elementLetters_of_ofForm opens read)

/-- A type described by a text that opens with a bracket has this text with dots for its name. -/
theorem name_of_ofDescriptor (read : ofDescriptor raw = .ok type) :
    type.name = Name.dotted raw := by
  have describes := describes_of_ofDescriptor read
  apply name_of_opening opens
  rw [describes.regular.elementLetters_eq_dotted, Name.dotted, String.toList_ofList,
    describes.rendered, Name.respell_of_respelled]

end Opening

end TypeName

/-! ## Types in records -/

namespace TypeName

/-- Types of enum constants and annotations are read types. -/
theorem isRead_of_ofReferenceDescriptor {text : String} {type : TypeName}
    (read : ofReferenceDescriptor text = .ok type) : type.IsRead := by
  obtain ⟨found, descriptorRead, checked⟩ := bind_eq_ok_iff.mp read
  split at checked
  · simp [throw, throwThe, MonadExceptOf.throw] at checked
  · cases checked
    exact .descriptor descriptorRead

/-- Declared names give read types. -/
theorem isRead_of_ofDeclaredName {raw : String} {type : TypeName}
    (read : ofDeclaredName raw = .ok type) : type.IsRead := by
  obtain ⟨named, classRead, matched⟩ := bind_eq_ok_iff.mp read
  split at matched
  · cases matched
    exact .className classRead
  · simp [throw, throwThe, MonadExceptOf.throw] at matched

end TypeName

/-- What the descriptor of an annotation describes is a read type. -/
theorem AnnotationUse.Describes.isRead {mark : AnnotationRecord} {type : TypeName}
    (describes : mark.Describes type) : type.IsRead := by
  cases describes with
  | named _ read => exact TypeName.isRead_of_ofReferenceDescriptor read
  | literal _ read => exact .descriptor read

/-- All types that stand in a record are read from its texts. -/
theorem ClassRecord.Mentions.isRead {record : ClassRecord} {type : TypeName}
    (mentions : record.Mentions type) : type.IsRead := by
  cases mentions with
  | supertype _ read => exact .className read
  | enclosing _ read => exact .className read
  | marked _ describes => exact describes.isRead
  | field _ mentions =>
    cases mentions with
    | value read => exact .descriptor read
    | marked _ describes => exact describes.isRead
  | method _ mentions =>
    cases mentions with
    | returned read returns => exact returns ▸ .returned read
    | parameter read takes => exact .parameter read takes
    | thrown _ read => exact .className read
    | accessOwner _ read => exact .className read
    | body _ read => exact .className read
    | marked _ describes => exact describes.isRead

/-- All types that linking meets are read from some text. -/
theorem ClassPool.isRead_of_mem_interned {pool : ClassPool} {type : TypeName}
    (listed : type ∈ Link.interned pool.typedRecords pool.missingNames) : type.IsRead := by
  rw [Link.interned, List.mem_append, List.mem_append] at listed
  rcases listed with (isDeclared | isMissing) | isMentioned
  · obtain ⟨typed, isTyped, rfl⟩ := List.mem_map.mp isDeclared
    have read := (mem_typedRecords_iff.mp isTyped).2
    exact TypeName.isRead_of_ofDeclaredName (RecordTypes.readFrom_of_read read).this
  · obtain ⟨name, _, found⟩ := List.mem_filterMap.mp isMissing
    exact .className (toOption_toList_mem_iff.mp (Option.mem_toList.mpr found))
  · obtain ⟨typed, isTyped, mentioned⟩ := List.mem_flatMap.mp isMentioned
    have read := (mem_typedRecords_iff.mp isTyped).2
    exact ((RecordTypes.mem_mentions_iff read).mp mentioned).isRead

end ClassAtlas
