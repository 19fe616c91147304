import ClassAtlas.Proofs.Mentions
import ClassAtlas.Proofs.Spellings

/-!
# The grammar of descriptors

Descriptors delimit themselves: a reader that takes one off the front of a text knows where it ends
without looking further. Here the texts are described by a grammar of their own, and the readers
are shown to accept exactly these. What a reader has taken is the descriptor of the type that it
gives, up to dots for slashes, so that nothing of a text is lost.

There are two ways of keeping `void` out. An array has no component that is the primitive type; a
method has no parameter of that name, which may be a class as well.
-/

namespace ClassAtlas

/-- The texts of single types: a letter of a primitive type, a class name between `L` and a
semicolon, or a bracket and the text of a component. -/
inductive IsFieldDescriptor : List Char → Prop
  | primitive {symbol : Char} (isLetter : symbol ∈ ['V', 'Z', 'B', 'C', 'S', 'I', 'J', 'F', 'D']) :
    IsFieldDescriptor [symbol]
  | object {name : List Char} (nonempty : name ≠ [])
    (plain : ∀ letter ∈ name, letter ∉ ['[', ']', ';', '(', ')']) :
    IsFieldDescriptor ('L' :: (name ++ [';']))
  | array {component : List Char} (notVoid : component ≠ ['V'])
    (inside : IsFieldDescriptor component) : IsFieldDescriptor ('[' :: component)

/-- The texts of parameters. -/
def IsParameter (word : List Char) : Prop :=
  IsFieldDescriptor word ∧ word ≠ ['V'] ∧ word ≠ ['L', 'v', 'o', 'i', 'd', ';']

/-- The texts of methods: parameters in parentheses and what is returned. -/
def IsMethodDescriptor (letters : List Char) : Prop :=
  ∃ (parameters : List (List Char)) (returned : List Char),
    (∀ word ∈ parameters, IsParameter word) ∧ IsFieldDescriptor returned ∧
      letters = '(' :: (parameters.flatten ++ ')' :: returned)

/-- A reader accepts the texts of a grammar and no others; what it gives is written as the text that
was read, with slashes for dots; and a fault names that text. -/
structure ReadsGrammar {α : Type} (read : String → Except SpellingError α)
    (grammar : List Char → Prop) (render : α → String) : Prop where
  accepts : ∀ text, (∃ value, read text = .ok value) ↔ grammar text.toList
  renders : ∀ text value, read text = .ok value → render value = Name.slashed text
  refuses : ∀ text fault, read text = .error fault → fault = .invalid text

namespace Name

/-- Respelling goes letter by letter. -/
theorem respell_append (old new : Char) (front back : List Char) :
    respell old new (front ++ back) = respell old new front ++ respell old new back :=
  List.map_append

/-- What was respelled the other way before does not matter. -/
theorem respell_of_respelled (old new : Char) (letters : List Char) :
    respell old new (respell new old letters) = respell old new letters := by
  rw [respell, respell, respell, List.map_map]
  refine List.map_congr_left fun letter _ => ?_
  by_cases isNew : letter = new
  · simp [isNew]
  · simp [isNew]

/-- A text without the new letter was not changed. -/
theorem eq_of_respell_eq {old new : Char} {letters respelled : List Char}
    (same : respell old new letters = respelled) (absent : new ∉ respelled) :
    letters = respelled := by
  rw [← same] at absent ⊢
  refine ((List.map_congr_left fun letter listed => ?_).trans (List.map_id letters)).symm
  refine if_neg fun isOld => absent ?_
  exact List.mem_map.mpr ⟨letter, listed, if_pos isOld⟩

end Name

namespace TypeName

/-- A text describes a type. -/
structure Describes (word : List Char) (type : TypeName) : Prop where
  grammar : IsFieldDescriptor word
  regular : type.Regular
  rendered : type.descriptor.toList = Name.respell '.' '/' word

/-- Regular types are told apart by their descriptors. -/
theorem eq_of_descriptor_eq {left right : TypeName} (leftRegular : left.Regular)
    (rightRegular : right.Regular) (same : left.descriptor = right.descriptor) : left = right := by
  have read := ofDescriptor_descriptor leftRegular
  rw [same, ofDescriptor_descriptor rightRegular] at read
  exact (Except.ok.inj read).symm

variable {word : List Char} {type : TypeName}

/-- A type whose descriptor has no slash is described by that one text. -/
theorem Describes.eq_iff {other : TypeName} (describes : Describes word type)
    (regular : other.Regular) (slashless : '/' ∉ other.descriptor.toList) :
    type = other ↔ word = other.descriptor.toList := by
  constructor
  · rintro rfl
    exact Name.eq_of_respell_eq describes.rendered.symm slashless
  · intro same
    refine eq_of_descriptor_eq describes.regular regular (String.toList_inj.mp ?_)
    rw [describes.rendered, same, toList_descriptor, ← Name.respell_of_respelled,
      Name.respell_respell regular.not_mem_elementLetters.1]

/-- Only the letter of `void` describes `void`. -/
theorem Describes.eq_void_iff (describes : Describes word type) :
    type = primitive .void ↔ word = ['V'] :=
  describes.eq_iff trivial (by decide)

/-- The name of `void` is that of the primitive type and of one class. -/
theorem sameName_void_iff : type.sameName (primitive .void) = true ↔
    type = primitive .void ∨ type = object "void" := by
  rw [sameName, decide_eq_true_iff]
  cases type with
  | primitive kind => cases kind <;> decide
  | object name => simp [TypeName.name, Primitive.keyword]
  | array component =>
    have different : (array component).name ≠ "void" := by
      intro same
      simpa [TypeName.name] using congrArg String.toList same
    simpa [TypeName.name, Primitive.keyword] using different

/-- A parameter is refused for its name exactly if its text is one of two. -/
theorem Describes.sameName_void_iff (describes : Describes word type) :
    type.sameName (primitive .void) = true ↔
      word = ['V'] ∨ word = ['L', 'v', 'o', 'i', 'd', ';'] := by
  have proper : Proper "void" := ⟨by decide, by simp [punctuation], by decide⟩
  have isClass : type = object "void" ↔ word = ['L', 'v', 'o', 'i', 'd', ';'] :=
    describes.eq_iff proper (by decide)
  rw [TypeName.sameName_void_iff, describes.eq_void_iff, isClass]

/-! ## Single types -/

/-- A letter describes its primitive type. -/
theorem describes_primitive (kind : Primitive) : Describes [kind.letter] (primitive kind) := by
  cases kind <;> exact ⟨.primitive (by decide), trivial, rfl⟩

/-- A name between `L` and a semicolon describes the class that it is read as. -/
theorem describes_object {name : List Char} (read : ofObjectName name = .ok type) :
    Describes ('L' :: (name ++ [';'])) type := by
  obtain ⟨dotted, rfl, proper, letters⟩ := proper_of_ofObjectName read
  have valid : isObjectName name = true := by
    rw [ofObjectName] at read
    split at read
    · assumption
    · simp at read
  obtain ⟨nonempty, plain⟩ := Bool.and_eq_true_iff.mp valid
  refine ⟨.object (by simpa using nonempty) ?_, proper, ?_⟩
  · intro letter listed
    exact of_decide_eq_true (List.all_eq_true.mp plain letter listed)
  · have slashed := Name.respell_of_respelled '.' '/' name
    rw [← letters] at slashed
    rw [toList_descriptor, elementLetters]
    simp only [Name.respell, List.map_cons, List.map_append, List.map_nil] at slashed ⊢
    rw [slashed]

/-- A bracket before a descriptor describes an array, though not of `void`. -/
theorem describes_array (notVoid : type ≠ primitive .void) (inside : Describes word type) :
    Describes ('[' :: word) (array type) := by
  refine ⟨.array (mt inside.eq_void_iff.mpr notVoid) inside.grammar, ⟨notVoid, inside.regular⟩, ?_⟩
  have rendered := inside.rendered
  rw [toList_descriptor] at rendered ⊢
  exact congrArg ('[' :: ·) rendered

/-- What is taken off the front of a text describes the type that it is taken for. -/
theorem describes_of_takeDescriptor {letters after : List Char} {type : TypeName}
    (taken : takeDescriptor letters = some (type, after)) :
    ∃ word, letters = word ++ after ∧ Describes word type := by
  fun_induction takeDescriptor letters generalizing type after with
  | case1 => simp at taken
  | case2 rest name tail found =>
    obtain ⟨named, isNamed, same⟩ := Option.map_eq_some_iff.mp taken
    cases same
    have read := toOption_toList_mem_iff.mp (Option.mem_toList.mpr isNamed)
    obtain ⟨rfl, _⟩ := Name.splitFirst_eq_some found
    exact ⟨'L' :: (name ++ [';']), by simp, describes_object read⟩
  | case3 => simp at taken
  | case4 => simp at taken
  | case5 rest component tail notVoid found inductionHypothesis =>
    cases taken
    obtain ⟨word, rfl, inside⟩ := inductionHypothesis found
    refine ⟨'[' :: word, rfl, describes_array ?_ inside⟩
    rintro rfl
    exact notVoid rfl
  | case6 => simp at taken
  | case7 symbol rest =>
    obtain ⟨kind, isKind, same⟩ := Option.map_eq_some_iff.mp taken
    cases same
    rw [← Primitive.ofLetter?_eq_some_iff.mp isKind]
    exact ⟨[kind.letter], rfl, describes_primitive kind⟩

/-- A text that is taken off as a whole, whatever follows it, describes what it is taken for. -/
theorem describes_of_taken
    (taken : ∀ rest, takeDescriptor (word ++ rest) = some (type, rest)) : Describes word type := by
  obtain ⟨same, split, describes⟩ := describes_of_takeDescriptor (taken [])
  rwa [List.append_cancel_right split]

/-- Every text of the grammar is taken off the front of any text that starts with it. -/
theorem exists_takeDescriptor (grammar : IsFieldDescriptor word) :
    ∃ type, ∀ rest, takeDescriptor (word ++ rest) = some (type, rest) := by
  induction grammar with
  | primitive isLetter =>
    simp only [List.mem_cons, List.not_mem_nil, or_false] at isLetter
    rcases isLetter with rfl | rfl | rfl | rfl | rfl | rfl | rfl | rfl | rfl <;>
      exact ⟨_, fun _ => rfl⟩
  | @object name nonempty plain =>
    have absent : ';' ∉ name := fun listed => plain ';' listed (by decide)
    have valid : isObjectName name = true := by
      simpa [isObjectName, nonempty, punctuation] using plain
    refine ⟨object (String.ofList (Name.respell '/' '.' name)), fun rest => ?_⟩
    rw [List.cons_append, List.append_assoc, List.singleton_append]
    simp only [takeDescriptor, Name.splitFirst_append absent, ofObjectName, valid, if_true]
    rfl
  | array notVoid inside inductionHypothesis =>
    obtain ⟨type, taken⟩ := inductionHypothesis
    have typeNotVoid := mt (describes_of_taken taken).eq_void_iff.mp notVoid
    exact ⟨array type, fun rest => takeDescriptor_array typeNotVoid (taken rest)⟩

/-- A text that is read as a type describes it. -/
theorem describes_of_ofDescriptor {text : String} (read : ofDescriptor text = .ok type) :
    Describes text.toList type := by
  rw [ofDescriptor] at read
  split at read
  · rename_i taken
    cases read
    obtain ⟨word, whole, describes⟩ := describes_of_takeDescriptor taken
    rwa [whole, List.append_nil]
  · simp at read

/-- Reading field descriptors accepts exactly those of the grammar, and gives the types they stand
for. -/
theorem ofDescriptor_readsGrammar : ReadsGrammar ofDescriptor IsFieldDescriptor descriptor where
  accepts := by
    intro text
    constructor
    · rintro ⟨type, read⟩
      exact (describes_of_ofDescriptor read).grammar
    · intro grammar
      obtain ⟨type, taken⟩ := exists_takeDescriptor grammar
      have whole := taken []
      rw [List.append_nil] at whole
      exact ⟨type, by rw [ofDescriptor, whole]⟩
  renders := by
    intro text type read
    apply String.toList_inj.mp
    rw [(describes_of_ofDescriptor read).rendered, Name.slashed, String.toList_ofList]
  refuses := by
    intro text fault read
    rw [ofDescriptor] at read
    split at read
    · simp at read
    · exact (Except.error.inj read).symm

end TypeName

namespace MethodDescriptor

/-! ## Methods -/

/-- The letters of some types, one descriptor after the other. -/
def typeLetters (types : List TypeName) : List Char :=
  types.flatMap fun type => type.descriptor.toList

/-- Parameters are taken one after the other, as long as they are not `void`. -/
theorem takeParameters_cons {letters after rest : List Char} {type : TypeName}
    {types : List TypeName} (taken : TypeName.takeDescriptor letters = some (type, after))
    (named : type.sameName (.primitive .void) = false)
    (later : takeParameters after = some (types, rest)) :
    takeParameters letters = some (type :: types, rest) := by
  rw [takeParameters.eq_def]
  split
  · simp [TypeName.takeDescriptor] at taken
  · cases taken
  · split
    · rename_i none
      rw [taken] at none
      cases none
    · rename_i same
      rw [taken] at same
      cases same
      rw [named, later]
      rfl

/-- What is taken as parameters is a sequence of texts of parameters and a closing parenthesis. -/
theorem parameters_of_takeParameters {letters after : List Char} {types : List TypeName}
    (taken : takeParameters letters = some (types, after)) :
    ∃ words : List (List Char), letters = words.flatten ++ ')' :: after ∧
      (∀ word ∈ words, IsParameter word) ∧
      typeLetters types = Name.respell '.' '/' words.flatten := by
  fun_induction takeParameters letters generalizing types after with
  | case1 => simp at taken
  | case2 rest =>
    cases taken
    exact ⟨[], rfl, by simp, rfl⟩
  | case3 => simp at taken
  | case4 => simp at taken
  | case5 others _ _ first rest found named inductionHypothesis =>
    obtain ⟨⟨later, tail⟩, laterTaken, same⟩ := Option.map_eq_some_iff.mp taken
    cases same
    obtain ⟨words, rfl, grammar, rendered⟩ := inductionHypothesis laterTaken
    obtain ⟨word, rfl, describes⟩ := TypeName.describes_of_takeDescriptor found
    obtain ⟨notVoid, notClass⟩ := not_or.mp (mt describes.sameName_void_iff.mpr named)
    refine ⟨word :: words, by simp, ?_, ?_⟩
    · exact List.forall_mem_cons.mpr ⟨⟨describes.grammar, notVoid, notClass⟩, grammar⟩
    · rw [typeLetters] at rendered ⊢
      rw [List.flatMap_cons, describes.rendered, rendered, List.flatten_cons, Name.respell_append]

/-- Every sequence of texts of parameters is taken up to the closing parenthesis. -/
theorem exists_takeParameters {words : List (List Char)}
    (grammar : ∀ word ∈ words, IsParameter word) :
    ∃ types, ∀ rest, takeParameters (words.flatten ++ ')' :: rest) = some (types, rest) := by
  induction words with
  | nil => exact ⟨[], fun rest => by simp [takeParameters]⟩
  | cons word others inductionHypothesis =>
    obtain ⟨⟨isWord, notVoid, notClass⟩, later⟩ := List.forall_mem_cons.mp grammar
    obtain ⟨types, laterTaken⟩ := inductionHypothesis later
    obtain ⟨type, taken⟩ := TypeName.exists_takeDescriptor isWord
    have describes := TypeName.describes_of_taken taken
    have named : type.sameName (.primitive .void) = false := by
      rw [Bool.eq_false_iff]
      exact mt describes.sameName_void_iff.mp (not_or.mpr ⟨notVoid, notClass⟩)
    refine ⟨type :: types, fun rest => ?_⟩
    rw [List.flatten_cons, List.append_assoc]
    exact takeParameters_cons (taken _) named (laterTaken rest)

/-- A method descriptor is written as its parameters in parentheses and its return type. -/
theorem toList_render (descriptor : MethodDescriptor) :
    descriptor.render.toList = '(' :: (typeLetters descriptor.parameters ++
      ')' :: descriptor.returnType.descriptor.toList) := by
  simp [render, typeLetters, String.toList_join, List.flatMap_map]

/-- What is read as a method descriptor is one, and is its text up to dots for slashes. -/
theorem grammar_of_parse {text : String} {descriptor : MethodDescriptor}
    (read : parse text = .ok descriptor) : IsMethodDescriptor text.toList ∧
      descriptor.render.toList = Name.respell '.' '/' text.toList := by
  obtain ⟨rest, after, whole, parametersTaken, returnTaken⟩ := taken_of_parse read
  obtain ⟨words, rfl, grammar, rendered⟩ := parameters_of_takeParameters parametersTaken
  obtain ⟨returned, rfl, describes⟩ := TypeName.describes_of_takeDescriptor returnTaken
  rw [List.append_nil] at whole
  refine ⟨⟨words, returned, grammar, describes.grammar, whole⟩, ?_⟩
  have inside := Name.respell_append '.' '/' words.flatten (')' :: returned)
  rw [toList_render, rendered, describes.rendered, whole]
  exact congrArg ('(' :: ·) inside.symm

/-- Reading method descriptors accepts exactly those of the grammar, and gives the types they stand
for. -/
theorem parse_readsGrammar : ReadsGrammar parse IsMethodDescriptor render where
  accepts := by
    intro text
    constructor
    · rintro ⟨descriptor, read⟩
      exact (grammar_of_parse read).1
    · rintro ⟨words, returned, grammar, isReturned, whole⟩
      obtain ⟨parameters, parametersTaken⟩ := exists_takeParameters grammar
      obtain ⟨returnType, returnTaken⟩ := TypeName.exists_takeDescriptor isReturned
      have returnWhole := returnTaken []
      rw [List.append_nil] at returnWhole
      refine ⟨{ parameters, returnType }, ?_⟩
      rw [parse, whole, parse?, parametersTaken]
      simp only [returnWhole]
  renders := by
    intro text descriptor read
    apply String.toList_inj.mp
    rw [(grammar_of_parse read).2, Name.slashed, String.toList_ofList]
  refuses := by
    intro text fault read
    rw [parse] at read
    split at read
    · simp at read
    · exact (Except.error.inj read).symm

end MethodDescriptor

/-- Field and method descriptors are read by their grammars. -/
theorem descriptors_readGrammar :
    ReadsGrammar TypeName.ofDescriptor IsFieldDescriptor TypeName.descriptor ∧
      ReadsGrammar MethodDescriptor.parse IsMethodDescriptor MethodDescriptor.render :=
  ⟨TypeName.ofDescriptor_readsGrammar, MethodDescriptor.parse_readsGrammar⟩

end ClassAtlas
