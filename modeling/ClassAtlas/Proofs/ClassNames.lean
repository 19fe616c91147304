import ClassAtlas.Pool
import ClassAtlas.Proofs.Typing

/-!
# Names that identify classes

A class is identified by a dotted name without punctuation of descriptors. Class names are read
in several notations, and here it is shown what they can be read as: a primitive type by its
keyword, a class by a plain name, or an array of one of these. Two consequences tie names in a
pool to types in a graph. The class that a text leads to, innermost in the type it is read as, has a
name that is read as itself unless it is a keyword, and a class file declares a class of the very
name it gives.
-/

namespace ClassAtlas

namespace TypeName

/-- A class name as it identifies a class: not empty, without punctuation of descriptors, and
dotted. -/
structure Proper (name : String) : Prop where
  nonempty : name.toList ≠ []
  plain : ∀ letter ∈ name.toList, letter ∉ punctuation
  dotted : '/' ∉ name.toList

/-- Dots in place of slashes leave no slash. -/
theorem slash_not_mem_respell (letters : List Char) : '/' ∉ Name.respell '/' '.' letters := by
  intro listed
  obtain ⟨letter, _, same⟩ := List.mem_map.mp listed
  split at same
  · exact absurd same (by decide)
  · rename_i different
    exact different same

/-- A dotted text is left as it is. -/
theorem respell_of_dotted {letters : List Char} (dotted : '/' ∉ letters) :
    Name.respell '/' '.' letters = letters := by
  refine (List.map_congr_left fun letter listed => ?_).trans (List.map_id letters)
  split
  · rename_i slash
    exact absurd (slash ▸ listed) dotted
  · rfl

/-- A plain name is read into a class of the dotted name. -/
theorem proper_of_ofObjectName {letters : List Char} {type : TypeName}
    (read : ofObjectName letters = .ok type) :
    ∃ name, type = object name ∧ Proper name ∧ name.toList = Name.respell '/' '.' letters := by
  have spelled := spelled_of_ofObjectName read
  rw [ofObjectName] at read
  split at read
  · rename_i valid
    cases read
    refine ⟨_, rfl, ⟨?_, spelled, ?_⟩, String.toList_ofList⟩
    · have nonempty : letters ≠ [] := by simpa using (Bool.and_eq_true_iff.mp valid).1
      simpa [Name.respell] using nonempty
    · rw [String.toList_ofList]
      exact slash_not_mem_respell letters
  · simp at read

/-- What stands at the core of an array: a primitive type or a class. -/
def IsElement (element : TypeName) : Prop :=
  (∃ kind, element = primitive kind) ∨ ∃ letters, ofObjectName letters = .ok element

/-- What is read between the brackets and the end of an array's name is an element. -/
theorem isElement_of_ofArrayElement {letters : List Char} {element : TypeName}
    (read : ofArrayElement letters = .ok element) : element.IsElement := by
  rw [ofArrayElement] at read
  split at read
  · simp at read
  · cases read
    exact Or.inl ⟨_, rfl⟩
  · split at read
    · exact Or.inr ⟨_, read⟩
    · simp at read

/-- A binary array name has a bracket for each dimension, so at least one. -/
theorem exists_element_of_ofBinaryArray {letters : List Char} {type : TypeName}
    (read : ofBinaryArray ('[' :: letters) = .ok type) :
    ∃ (element : TypeName) (count : Nat),
      type = array (element.arrayOf count) ∧ element.IsElement := by
  simp only [ofBinaryArray] at read
  rw [List.takeWhile_cons_of_pos (by decide), List.length_cons] at read
  obtain ⟨element, inner, rfl⟩ := map_eq_ok_iff.mp read
  exact ⟨element, _, rfl, isElement_of_ofArrayElement inner⟩

/-- So has a source array name at its end. -/
theorem exists_element_of_ofSourceArray {raw : String} {type : TypeName}
    (bracketed : ['[', ']'].isSuffixOf raw.toList = true) (read : ofSourceArray raw = .ok type) :
    ∃ (element : TypeName) (count : Nat),
      type = array (element.arrayOf count) ∧ element.IsElement := by
  obtain ⟨front, split⟩ := List.isSuffixOf_iff_suffix.mp bracketed
  have stripped : (stripBrackets raw.toList.reverse).1 = (stripBrackets front.reverse).1 + 1 := by
    rw [← split, List.reverse_append]
    rfl
  simp only [ofSourceArray, stripped] at read
  split at read
  · simp at read
  · split at read
    · simp at read
    · cases read
      exact ⟨_, _, rfl, Or.inl ⟨_, rfl⟩⟩
    · obtain ⟨element, inner, rfl⟩ := map_eq_ok_iff.mp read
      exact ⟨element, _, rfl, Or.inr ⟨_, inner⟩⟩

/-- A class name is read as a keyword, as a plain name, or as an array of such a type. -/
theorem ofClassName_cases {raw : String} {type : TypeName} (read : ofClassName raw = .ok type) :
    (∃ kind, Primitive.ofKeyword? raw = some kind ∧ type = primitive kind) ∨
    (Primitive.ofKeyword? raw = none ∧ ofObjectName raw.toList = .ok type) ∨
    ∃ (element : TypeName) (count : Nat),
      type = array (element.arrayOf count) ∧ element.IsElement := by
  rw [ofClassName] at read
  split at read
  · rename_i kind keyword
    cases read
    exact Or.inl ⟨kind, keyword, rfl⟩
  · rename_i noKeyword
    rw [ofForm] at read
    split at read
    · simp at read
    · rename_i opens _
      obtain ⟨letters, split⟩ := List.isPrefixOf_iff_prefix.mp opens
      rw [← split] at read
      exact Or.inr (Or.inr (exists_element_of_ofBinaryArray read))
    · rename_i _ closes
      exact Or.inr (Or.inr (exists_element_of_ofSourceArray closes read))
    · exact Or.inr (Or.inl ⟨noKeyword, read⟩)

/-- Only a keyword is read as a primitive type. -/
theorem isPrimitive_of_ofClassName {raw : String} {type : TypeName}
    (read : ofClassName raw = .ok type) :
    type.isPrimitive = (Primitive.ofKeyword? raw).isSome := by
  rcases ofClassName_cases read with ⟨kind, keyword, rfl⟩ | ⟨noKeyword, plain⟩ |
    ⟨element, count, rfl, _⟩
  · simp [keyword, isPrimitive]
  · obtain ⟨name, rfl, _⟩ := proper_of_ofObjectName plain
    simp [noKeyword, isPrimitive]
  · cases keyword : Primitive.ofKeyword? raw with
    | none => rfl
    | some kind => simp [ofClassName, keyword] at read

/-- A proper name is read as itself, unless it is a keyword. -/
theorem ofClassName_of_proper {name : String} (proper : Proper name)
    (noKeyword : Primitive.ofKeyword? name = none) : ofClassName name = .ok (object name) := by
  have unbracketed : '[' ∉ name.toList := fun listed => proper.plain '[' listed (by decide)
  have opens : ['['].isPrefixOf name.toList = false := by
    rw [Bool.eq_false_iff]
    intro isPrefix
    exact unbracketed ((List.isPrefixOf_iff_prefix.mp isPrefix).subset (by simp))
  have closes : ['[', ']'].isSuffixOf name.toList = false := by
    rw [Bool.eq_false_iff]
    intro isSuffix
    exact unbracketed ((List.isSuffixOf_iff_suffix.mp isSuffix).subset (by simp))
  have valid : isObjectName name.toList = true := by
    simpa [isObjectName, proper.nonempty] using proper.plain
  simp only [ofClassName, noKeyword, ofForm, opens, closes, ofObjectName, valid, if_true,
    respell_of_dotted proper.dotted, String.ofList_toList]

/-- A dotted name that is read as that of a declared class is the name of that class. -/
theorem eq_object_of_ofDeclaredName {raw : String} {type : TypeName} (dotted : '/' ∉ raw.toList)
    (read : ofDeclaredName raw = .ok type) : type = object raw := by
  obtain ⟨named, classRead, matched⟩ := bind_eq_ok_iff.mp read
  rcases ofClassName_cases classRead with ⟨kind, _, rfl⟩ | ⟨_, plain⟩ | ⟨element, count, rfl, _⟩
  · simp [throw, throwThe, MonadExceptOf.throw] at matched
  · obtain ⟨name, rfl, _, letters⟩ := proper_of_ofObjectName plain
    cases matched
    rw [respell_of_dotted dotted, String.toList_inj] at letters
    rw [letters]
  · simp [throw, throwThe, MonadExceptOf.throw] at matched

/-- Dimensions do not change the innermost element. -/
theorem base_arrayOf (element : TypeName) (count : Nat) :
    (element.arrayOf count).base = element.base := by
  induction count with
  | zero => rfl
  | succ count inductionHypothesis => exact inductionHypothesis

/-- A type is its innermost element, wrapped into its dimensions. -/
@[simp]
theorem arrayOf_base (type : TypeName) : type.base.arrayOf type.dimensions = type := by
  induction type with
  | primitive _ => rfl
  | object _ => rfl
  | array component inductionHypothesis =>
    rw [base, dimensions, arrayOf, inductionHypothesis]

end TypeName

/-- A text leads to the class of a name if it is read as that class, or as an array of some
dimensions with that class as its innermost element. Primitive types, arrays of them and malformed
texts lead to no class. -/
def LeadsTo (text name : String) : Prop :=
  ∃ dimensions, TypeName.ofClassName text = .ok ((TypeName.object name).arrayOf dimensions)

/-- A text leads to the class that stands innermost in the type it is read as. -/
theorem leadsTo_iff_base {text name : String} :
    LeadsTo text name ↔
      ∃ type, TypeName.ofClassName text = .ok type ∧ type.base = .object name := by
  constructor
  · rintro ⟨dimensions, read⟩
    exact ⟨_, read, TypeName.base_arrayOf _ dimensions⟩
  · rintro ⟨type, read, innermost⟩
    refine ⟨type.dimensions, ?_⟩
    rw [← innermost, TypeName.arrayOf_base, read]

/-- The class file behind a text is that of the class it leads to. -/
theorem classFileName?_eq_some_iff {text name : String} :
    classFileName? text = some name ↔ LeadsTo text name := by
  rw [leadsTo_iff_base, classFileName?]
  cases TypeName.ofClassName text with
  | error problem => simp [Except.toOption]
  | ok type => cases innermost : type.base <;> simp [Except.toOption, innermost]

example : classFileName? "[[La.C;" = some "a.C" ∧ classFileName? "a.C[]" = some "a.C" ∧
    classFileName? "[[I" = none := by decide +kernel

/-- Texts lead to classes of proper names only. -/
theorem LeadsTo.proper {text name : String} (leads : LeadsTo text name) :
    TypeName.Proper name := by
  have element {type : TypeName} (isElement : type.IsElement)
      (isObject : type.base = .object name) : TypeName.Proper name := by
    rcases isElement with ⟨kind, rfl⟩ | ⟨letters, read⟩
    · simp [TypeName.base] at isObject
    · obtain ⟨other, rfl, proper, _⟩ := TypeName.proper_of_ofObjectName read
      cases isObject
      exact proper
  obtain ⟨type, read, isObject⟩ := leadsTo_iff_base.mp leads
  rcases TypeName.ofClassName_cases read with ⟨kind, _, rfl⟩ | ⟨_, plain⟩ |
    ⟨inner, count, rfl, isElement⟩
  · simp [TypeName.base] at isObject
  · exact element (Or.inr ⟨_, plain⟩) isObject
  · exact element isElement ((TypeName.base_arrayOf inner count).symm.trans isObject)

namespace ClassFile

/-- Whatever a decoder takes has a property. -/
def Yields {α : Type} (step : Decoder α) (holds : α → Prop) : Prop :=
  ∀ bytes value rest, step bytes = .ok (value, rest) → holds value

namespace Yields

variable {α β : Type} {holds : α → Prop} {after : β → Prop}

/-- What an outcome is known to be holds of the value it gives. -/
theorem lift (outcome : Except Fault α) :
    Yields (liftM outcome : Decoder α) fun value => outcome = .ok value := by
  intro bytes value rest taken
  cases outcome with
  | error fault => cases taken
  | ok answer =>
    cases taken
    rfl

/-- A value that is given has the properties that it has. -/
theorem pure {value : α} (given : holds value) : Yields (Pure.pure value : Decoder α) holds := by
  intro bytes result rest taken
  cases taken
  exact given

/-- A step after another can rely on what the first takes. -/
theorem bind {step : Decoder α} {next : α → Decoder β} (first : Yields step holds)
    (later : ∀ value, holds value → Yields (next value) after) : Yields (step >>= next) after := by
  intro bytes value rest taken
  have run : (step bytes >>= fun taken => next taken.1 taken.2) = .ok (value, rest) := taken
  obtain ⟨⟨middle, remaining⟩, takenFirst, takenSecond⟩ := bind_eq_ok_iff.mp run
  exact later middle (first bytes middle remaining takenFirst) remaining value rest takenSecond

/-- What comes before does not matter where the property does not depend on it. -/
theorem andThen {step : Decoder α} {next : α → Decoder β}
    (later : ∀ value, Yields (next value) after) : Yields (step >>= next) after := by
  have anything : Yields step fun _ => True := fun _ _ _ _ => trivial
  exact anything.bind fun value _ => later value

/-- What both branches take has the property. -/
theorem ite {condition : Prop} [Decidable condition] {step other : Decoder α}
    (first : Yields step holds) (second : Yields other holds) :
    Yields (if condition then step else other) holds := by
  split
  · exact first
  · exact second

/-- A check in front does not matter either. -/
theorem guard {condition : Prop} [Decidable condition] {fault : Fault} {next : Unit → Decoder α}
    (later : ∀ checked, Yields (next checked) holds) :
    Yields (if condition then MonadExcept.throw fault >>= next else next ()) holds :=
  ite (andThen later) (later ())

/-- Nor does a choice between two steps. -/
theorem branch {condition : Prop} [Decidable condition] {step other : Decoder α}
    {next : α → Decoder β} (later : ∀ value, Yields (next value) after) :
    Yields (if condition then step >>= next else other >>= next) after :=
  ite (andThen later) (andThen later)

end Yields

/-- The name in a class record is that of a class entry, with dots. -/
theorem decode_yields_dotted :
    Yields ClassRecord.decode fun record => '/' ∉ record.name.toList := by
  refine .andThen fun found => .guard fun _ => ?_
  refine .andThen fun minor => .andThen fun major => .guard fun _ => ?_
  refine .andThen fun pool => .andThen fun flags => .andThen fun index => ?_
  refine .bind (.lift _) fun name read => ?_
  have dotted : '/' ∉ name.toList := by
    obtain ⟨raw, _, rfl⟩ := map_eq_ok_iff.mp read
    rw [Name.dotted, String.toList_ofList]
    exact TypeName.slash_not_mem_respell raw.toList
  refine .andThen fun superIndex => .branch fun superclass => ?_
  exact .andThen fun interfaces => .andThen fun fields => .andThen fun methods =>
    .andThen fun summary => .pure dotted

/-- Class files name their classes with dots. -/
theorem dotted_of_read {bytes : List UInt8} {record : ClassRecord}
    (read : read bytes = .ok record) : '/' ∉ record.name.toList := by
  obtain ⟨⟨taken, rest⟩, decoded, finished⟩ := bind_eq_ok_iff.mp read
  cases rest with
  | cons first others => cases finished
  | nil =>
    cases finished
    exact decode_yields_dotted bytes record [] decoded

end ClassFile

end ClassAtlas
