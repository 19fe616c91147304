import ClassAtlas.ClassFile.Reader
import ClassAtlas.Proofs.Encoding
import ClassAtlas.Proofs.Typing
import Mathlib.Data.List.Induction
import Mathlib.Data.List.Perm.Basic

/-!
# Attributes of classes in any order

Each attribute of a class can be read by itself, and what it says is put together with what the
others say. Five kinds of attributes say something. Annotations are listed block by block. The name
of the source file and the lines of a table of inner classes prevail over what was said before; an
enclosing class is taken only where no outer class is known.

What all attributes say together can be told without going through them one by one: the enclosing
class, for instance, is the outer class of the last line that has one, and else the enclosing class
that is named first. Attributes of which there is only one can thus stand anywhere, and attributes
that say nothing can stand anywhere between them. Only annotations keep the order of their blocks.
-/

namespace ClassAtlas.ClassFile

/-! ## Decoders that end well -/

section Decoders

variable {α β : Type} {bytes rest : List UInt8}

/-- A value that is given takes no bytes. -/
theorem run_pure_eq_ok_iff {value found : α} :
    (pure value : Decoder α) bytes = .ok (found, rest) ↔ value = found ∧ bytes = rest := by
  have taken : (pure value : Decoder α) bytes = .ok (value, bytes) := rfl
  rw [taken, Except.ok.injEq, Prod.mk.injEq]

/-- An outcome that is given takes no bytes, and has to be a success. -/
theorem run_lift_eq_ok_iff {outcome : Except Fault α} {found : α} :
    (liftM outcome : Decoder α) bytes = .ok (found, rest) ↔
      outcome = .ok found ∧ bytes = rest := by
  cases outcome with
  | error fault =>
    constructor
    · intro ended
      cases (show Except.error fault = Except.ok (found, rest) from ended)
    · intro ended
      cases ended.1
  | ok value =>
    rw [Except.ok.injEq]
    exact run_pure_eq_ok_iff

/-- One decoder after the other ends well exactly when both do. -/
theorem run_bind_eq_ok_iff {step : Decoder α} {next : α → Decoder β} {found : β} :
    (step >>= next) bytes = .ok (found, rest) ↔
      ∃ middle between, step bytes = .ok (middle, between) ∧
        next middle between = .ok (found, rest) := by
  have parts : (step >>= next) bytes = .ok (found, rest) ↔ ∃ taken, step bytes = .ok taken ∧
      next taken.1 taken.2 = .ok (found, rest) := bind_eq_ok_iff
  exact parts.trans Prod.exists

/-- Bytes are accepted as a whole exactly when they are read to their end. -/
theorem whole_eq_ok_iff {step : Decoder α} {found : α} :
    Decoder.whole step bytes = .ok found ↔ step bytes = .ok (found, []) := by
  rw [Decoder.whole, StateT.run]
  cases step bytes with
  | error fault => simp [bind, Except.bind]
  | ok taken =>
    obtain ⟨value, left⟩ := taken
    cases left with
    | nil => simp [Decoder.finished, bind, Except.bind, pure, Except.pure, StateT.run]
    | cons byte others => simp [Decoder.finished, bind, Except.bind, StateT.run]

end Decoders

/-! ## Tables of inner classes -/

/-- What a line of a table of inner classes says of the class it is about. -/
structure InnerLine where
  outer : Option String
  name : Option String
  flags : UInt16

namespace InnerLine

/-- What a line says of a class; lines about other classes say nothing. -/
def ofInnerClass (pool : ConstantPool) (this : String) (line : InnerClass) :
    Except Fault (Option InnerLine) := do
  if (← pool.dottedClassName line.inner) ≠ this then return none
  else
    let outer ← if line.outer = 0 then pure none else some <$> pool.dottedClassName line.outer
    let name ← if line.name = 0 then pure none else some <$> pool.text line.name
    return some { outer, name, flags := line.flags }

/-- A line prevails in all that it says. -/
def onto (nesting : Nesting) (line : InnerLine) : Nesting :=
  { nesting with
    enclosingClass := line.outer.or nesting.enclosingClass
    innerName := line.name.or nesting.innerName
    innerFlags := some line.flags }

/-- What a whole table of inner classes says of a class, line by line. -/
def table (pool : ConstantPool) (this : String) (content : List UInt8) :
    Except Fault (List InnerLine) := do
  let lines ← Decoder.whole (Decoder.counted InnerClass.decode) content
  let found ← lines.mapM (ofInnerClass pool this)
  return found.filterMap id

end InnerLine

/-- A line of the table of inner classes changes the nesting only by what it says of the class
itself. -/
theorem withInnerClass_eq (pool : ConstantPool) (this : String) (nesting : Nesting)
    (line : InnerClass) :
    nesting.withInnerClass pool this line = (InnerLine.ofInnerClass pool this line).map
      fun found => found.elim nesting (InnerLine.onto nesting) := by
  rw [Nesting.withInnerClass, InnerLine.ofInnerClass]
  cases pool.dottedClassName line.inner with
  | error fault => rfl
  | ok inner =>
    by_cases other : inner ≠ this
    · simp only [bind, Except.bind, if_pos other]
      rfl
    · simp only [bind, Except.bind, if_neg other]
      by_cases noOuter : line.outer = 0 <;> by_cases noName : line.name = 0
      · simp only [if_pos noOuter, if_pos noName]
        rfl
      · simp only [if_pos noOuter, if_neg noName]
        cases pool.text line.name <;> rfl
      · simp only [if_neg noOuter, if_pos noName]
        cases pool.dottedClassName line.outer <;> rfl
      · simp only [if_neg noOuter, if_neg noName]
        cases pool.dottedClassName line.outer <;> cases pool.text line.name <;> rfl

section Lines

variable {pool : ConstantPool} {this : String} {nesting result : Nesting}
  {bytes rest : List UInt8}

/-- The lines are taken in one after the other. -/
theorem readInnerClasses_eq_ok_iff {count : Nat} :
    Nesting.readInnerClasses pool this count nesting bytes = .ok (result, rest) ↔
      ∃ lines found, Decoder.times InnerClass.decode count bytes = .ok (lines, rest) ∧
        lines.mapM (InnerLine.ofInnerClass pool this) = .ok found ∧
        (found.filterMap id).foldl InnerLine.onto nesting = result := by
  induction count generalizing nesting bytes with
  | zero =>
    rw [Nesting.readInnerClasses, Decoder.times, run_pure_eq_ok_iff]
    constructor
    · rintro ⟨rfl, rfl⟩
      exact ⟨[], [], rfl, rfl, rfl⟩
    · rintro ⟨lines, found, isEmpty, isFound, rfl⟩
      obtain ⟨rfl, rfl⟩ := run_pure_eq_ok_iff.mp isEmpty
      cases isFound
      exact ⟨rfl, rfl⟩
  | succ count inductionHypothesis =>
    rw [Nesting.readInnerClasses, Decoder.times]
    simp only [run_bind_eq_ok_iff, run_lift_eq_ok_iff, run_pure_eq_ok_iff, inductionHypothesis,
      withInnerClass_eq, map_eq_ok_iff]
    constructor
    · rintro ⟨line, between, isLine, next, _, ⟨⟨first, isFirst, rfl⟩, rfl⟩, lines, found, isRead,
        isFound, rfl⟩
      refine ⟨line :: lines, first :: found, ⟨line, between, isLine, lines, rest, isRead, rfl, rfl⟩,
        ?_, ?_⟩
      · rw [List.mapM_cons, isFirst, isFound]
        rfl
      · cases first <;> rfl
    · rintro ⟨_, found, ⟨line, between, isLine, lines, _, isRead, rfl, rfl⟩, isFound, rfl⟩
      rw [List.mapM_cons] at isFound
      obtain ⟨first, isFirst, isFound⟩ := bind_eq_ok_iff.mp isFound
      obtain ⟨others, isOthers, isFound⟩ := bind_eq_ok_iff.mp isFound
      cases isFound
      refine ⟨line, between, isLine, _, between, ⟨⟨first, isFirst, rfl⟩, rfl⟩, lines, others,
        isRead, isOthers, ?_⟩
      cases first <;> rfl

/-- A table of inner classes is read as the lines that it has about the class. -/
theorem whole_innerClasses_eq_ok_iff {content : List UInt8} :
    Decoder.whole (nesting.innerClasses pool this) content = .ok result ↔
      ∃ lines, InnerLine.table pool this content = .ok lines ∧
        lines.foldl InnerLine.onto nesting = result := by
  rw [whole_eq_ok_iff, Nesting.innerClasses, run_bind_eq_ok_iff, InnerLine.table]
  simp only [bind_eq_ok_iff, whole_eq_ok_iff, Decoder.counted, run_bind_eq_ok_iff,
    readInnerClasses_eq_ok_iff]
  constructor
  · rintro ⟨count, between, isCount, lines, found, isRead, isFound, rfl⟩
    exact ⟨_, ⟨lines, ⟨count, between, isCount, isRead⟩, found, isFound, rfl⟩, rfl⟩
  · rintro ⟨_, ⟨lines, ⟨count, between, isCount, isRead⟩, found, isFound, ⟨⟩⟩, rfl⟩
    exact ⟨count, between, isCount, lines, found, isRead, isFound, rfl⟩

end Lines

/-! ## Enclosing classes and methods -/

/-- A class that encloses another, and the method of it if there is one. -/
abbrev Place := String × Option (String × String)

/-- The numbers of the class and of the method. -/
def Place.decode (pool : ConstantPool) : Decoder Place := do
  let enclosing ← pool.dottedClassName (← Decoder.u2)
  let index ← Decoder.u2
  let method ← if index = 0 then pure none else some <$> pool.nameAndType index
  return (enclosing, method)

/-- The class of a place is taken where no other is known. -/
def Place.onto (nesting : Nesting) (place : Place) : Nesting :=
  { nesting with
    enclosingClass := nesting.enclosingClass.or (some place.1)
    isLocal := true
    enclosingMethod := place.2 }

/-- The enclosing place is read first and put into the nesting afterwards. -/
theorem enclosing_eq_map (pool : ConstantPool) (nesting : Nesting) :
    nesting.enclosing pool = Place.onto nesting <$> Place.decode pool := by
  simp only [Nesting.enclosing, Place.decode, map_bind]
  refine bind_congr fun number => bind_congr fun enclosing => bind_congr fun index => ?_
  by_cases noMethod : index = 0
  · simp [noMethod, Place.onto]
  · simp [noMethod, Place.onto]

/-- An attribute that gives the enclosing place is read as this place, whatever the nesting was. -/
theorem whole_enclosing_eq_ok_iff {pool : ConstantPool} {nesting result : Nesting}
    {content : List UInt8} :
    Decoder.whole (nesting.enclosing pool) content = .ok result ↔
      ∃ place, Decoder.whole (Place.decode pool) content = .ok place ∧
        Place.onto nesting place = result := by
  simp only [enclosing_eq_map, map_eq_pure_bind, whole_eq_ok_iff, run_bind_eq_ok_iff,
    run_pure_eq_ok_iff]
  constructor
  · rintro ⟨place, _, isPlace, rfl, rfl⟩
    exact ⟨place, isPlace, rfl⟩
  · rintro ⟨place, isPlace, rfl⟩
    exact ⟨place, [], isPlace, rfl, rfl⟩

/-! ## What each attribute says -/

/-- What one attribute of a class says by itself. -/
inductive Contribution
  | visible (marks : List AnnotationRecord)
  | invisible (marks : List AnnotationRecord)
  | sourceFile (name : String)
  | inner (lines : List InnerLine)
  | enclosing (place : Place)
  | nothing

namespace Contribution

/-- An attribute of the class `this`, read without regard to the others. -/
def ofAttribute (pool : ConstantPool) (this : String) (block : Attribute) :
    Except Fault Contribution :=
  match block.name with
  | "RuntimeVisibleAnnotations" =>
    (Decoder.whole (AnnotationTable.decode pool) block.content).map visible
  | "RuntimeInvisibleAnnotations" =>
    (Decoder.whole (AnnotationTable.decode pool) block.content).map invisible
  | "SourceFile" => (Decoder.whole (do pool.text (← Decoder.u2)) block.content).map sourceFile
  | "InnerClasses" => (InnerLine.table pool this block.content).map inner
  | "EnclosingMethod" => (Decoder.whole (Place.decode pool) block.content).map enclosing
  | _ => .ok nothing

/-- The names of the attributes that say something. -/
def names : List String :=
  ["RuntimeVisibleAnnotations", "RuntimeInvisibleAnnotations", "SourceFile", "InnerClasses",
    "EnclosingMethod"]

/-- The name that an attribute must have to say this. -/
def name? : Contribution → Option String
  | visible _ => some "RuntimeVisibleAnnotations"
  | invisible _ => some "RuntimeInvisibleAnnotations"
  | sourceFile _ => some "SourceFile"
  | inner _ => some "InnerClasses"
  | enclosing _ => some "EnclosingMethod"
  | nothing => none

/-- Put what an attribute says together with what is known. -/
def onto (summary : AttributeSummary) : Contribution → AttributeSummary
  | visible marks => { summary with annotations := summary.annotations ++ marks }
  | invisible marks => { summary with annotations := summary.annotations ++ marks }
  | sourceFile name => { summary with sourceFile := some name }
  | inner lines => { summary with nesting := lines.foldl InnerLine.onto summary.nesting }
  | enclosing place => { summary with nesting := Place.onto summary.nesting place }
  | nothing => summary

variable {pool : ConstantPool} {this : String}

/-- An attribute of an unknown name says nothing. -/
theorem ofAttribute_of_unknown {block : Attribute} (unknown : block.name ∉ names) :
    ofAttribute pool this block = .ok nothing := by
  simp only [names, List.mem_cons, List.not_mem_nil, or_false, not_or] at unknown
  unfold ofAttribute
  split <;> simp_all

/-- What is said under a name is said by an attribute of this name. -/
theorem name_of_ofAttribute {block : Attribute} {contribution : Contribution} {name : String}
    (said : ofAttribute pool this block = .ok contribution)
    (named : contribution.name? = some name) : block.name = name := by
  unfold ofAttribute at said
  split at said
  case h_6 =>
    cases said
    cases named
  all_goals
    obtain ⟨_, _, rfl⟩ := map_eq_ok_iff.mp said
    cases named
    assumption

/-- An attribute of one kind changes the summary by the value that its content is read as. -/
theorem exists_said_iff {γ : Type} (say : γ → Contribution) {outcome : Except Fault γ}
    {summary result : AttributeSummary} :
    (∃ contribution, outcome.map say = .ok contribution ∧ contribution.onto summary = result) ↔
      ∃ value, outcome = .ok value ∧ (say value).onto summary = result := by
  cases outcome with
  | error fault => simp [Except.map]
  | ok value => simp [Except.map]

/-- An attribute is taken in as what it says by itself. -/
theorem absorb_eq_ok_iff {summary result : AttributeSummary} {block : Attribute} :
    summary.absorb pool (.classBody this) block = .ok result ↔
      ∃ contribution, ofAttribute pool this block = .ok contribution ∧
        contribution.onto summary = result := by
  obtain ⟨name, content⟩ := block
  by_cases known : name ∈ names
  · simp only [names, List.mem_cons, List.not_mem_nil, or_false] at known
    obtain rfl | rfl | rfl | rfl | rfl := known
    · exact map_eq_ok_iff.trans (exists_said_iff visible).symm
    · exact map_eq_ok_iff.trans (exists_said_iff invisible).symm
    · exact map_eq_ok_iff.trans (exists_said_iff sourceFile).symm
    · refine Iff.trans map_eq_ok_iff (Iff.trans ?_ (exists_said_iff inner).symm)
      constructor
      · rintro ⟨nesting, isNesting, rfl⟩
        obtain ⟨lines, isTable, rfl⟩ := whole_innerClasses_eq_ok_iff.mp isNesting
        exact ⟨lines, isTable, rfl⟩
      · rintro ⟨lines, isTable, rfl⟩
        exact ⟨_, whole_innerClasses_eq_ok_iff.mpr ⟨lines, isTable, rfl⟩, rfl⟩
    · refine Iff.trans map_eq_ok_iff (Iff.trans ?_ (exists_said_iff enclosing).symm)
      constructor
      · rintro ⟨nesting, isNesting, rfl⟩
        obtain ⟨place, isPlace, rfl⟩ := whole_enclosing_eq_ok_iff.mp isNesting
        exact ⟨place, isPlace, rfl⟩
      · rintro ⟨place, isPlace, rfl⟩
        exact ⟨_, whole_enclosing_eq_ok_iff.mpr ⟨place, isPlace, rfl⟩, rfl⟩
  · have passedOver : summary.absorb pool (.classBody this) { name, content } = .ok summary := by
      simp only [names, List.mem_cons, List.not_mem_nil, or_false, not_or] at known
      unfold AttributeSummary.absorb
      split <;> simp_all [pure, Except.pure]
    rw [passedOver, ofAttribute_of_unknown known]
    simp [onto]

end Contribution

/-! ## What all attributes say together -/

/-- The nesting that some lines about a class and some places tell. -/
def nestingOf (lines : List InnerLine) (places : List Place) : Nesting where
  enclosingClass := (lines.filterMap InnerLine.outer).getLast?.or (places.head?.map Prod.fst)
  innerName := (lines.filterMap InnerLine.name).getLast?
  innerFlags := lines.getLast?.map InnerLine.flags
  isLocal := !places.isEmpty
  enclosingMethod := places.getLast?.bind Prod.snd

/-- One more line is put into the nesting of the lines before it. -/
theorem nestingOf_line (lines : List InnerLine) (line : InnerLine) (places : List Place) :
    nestingOf (lines ++ [line]) places = InnerLine.onto (nestingOf lines places) line := by
  obtain ⟨outer, name, flags⟩ := line
  cases outer <;> cases name <;> simp [nestingOf, InnerLine.onto]

/-- More lines are put into the nesting of the lines before them, one after the other. -/
theorem nestingOf_lines (lines more : List InnerLine) (places : List Place) :
    nestingOf (lines ++ more) places = more.foldl InnerLine.onto (nestingOf lines places) := by
  induction more generalizing lines with
  | nil => rw [List.append_nil, List.foldl_nil]
  | cons line others inductionHypothesis =>
    rw [List.append_cons, inductionHypothesis, nestingOf_line, List.foldl_cons]

/-- One more place is put into the nesting of the places before it. -/
theorem nestingOf_place (lines : List InnerLine) (places : List Place) (place : Place) :
    nestingOf lines (places ++ [place]) = Place.onto (nestingOf lines places) place := by
  simp only [nestingOf, Place.onto, List.head?_append, List.getLast?_append, Option.or_assoc]
  cases places with
  | nil => simp
  | cons first others => simp

namespace Contribution

/-- The annotations of a block of visible ones. -/
def visible? : Contribution → Option (List AnnotationRecord)
  | visible marks => some marks
  | _ => none

/-- The annotations of a block of invisible ones. -/
def invisible? : Contribution → Option (List AnnotationRecord)
  | invisible marks => some marks
  | _ => none

/-- The name of a source file. -/
def sourceFile? : Contribution → Option String
  | sourceFile name => some name
  | _ => none

/-- The lines of a table of inner classes. -/
def inner? : Contribution → Option (List InnerLine)
  | inner lines => some lines
  | _ => none

/-- The place that encloses the class. -/
def enclosing? : Contribution → Option Place
  | enclosing place => some place
  | _ => none

/-- The annotations of a block, visible or not. -/
def marks (contribution : Contribution) : List AnnotationRecord :=
  (contribution.visible?.or contribution.invisible?).getD []

/-- What some attributes say together. -/
def together (contributions : List Contribution) : AttributeSummary where
  annotations := contributions.flatMap marks
  sourceFile := (contributions.filterMap sourceFile?).getLast?
  nesting := nestingOf (contributions.filterMap inner?).flatten
    (contributions.filterMap enclosing?)

/-- One more attribute is put together with those before it. -/
theorem together_concat (contributions : List Contribution) (last : Contribution) :
    together (contributions ++ [last]) = last.onto (together contributions) := by
  simp only [together, List.flatMap_append, List.flatMap_singleton, List.filterMap_append,
    List.flatten_append, nestingOf_lines]
  cases last with
  | enclosing place =>
    rw [onto, ← nestingOf_place]
    simp [marks, visible?, invisible?, sourceFile?, inner?, enclosing?, List.filterMap_cons]
  | _ => simp [onto, marks, visible?, invisible?, sourceFile?, inner?, enclosing?,
      List.filterMap_cons]

/-- Attributes that are taken in one after the other say what they say together. -/
theorem foldl_onto (contributions : List Contribution) :
    contributions.foldl onto {} = together contributions := by
  induction contributions using List.reverseRecOn with
  | nil => rfl
  | append_singleton contributions last inductionHypothesis =>
    rw [List.foldl_concat, inductionHypothesis, together_concat]

end Contribution

/-! ## Tables of attributes -/

/-- An attribute as it stands in a class file: the number of its name, and its content. -/
structure WrittenAttribute where
  index : UInt16
  content : List UInt8
  fits : content.length < 0x100000000
  deriving DecidableEq

namespace WrittenAttribute

/-- The bytes of an attribute: the number of its name, the length of its content, and the
content. -/
def bytes (block : WrittenAttribute) : List UInt8 :=
  bytes16 block.index ++ (bytes32 (.ofNat block.content.length) ++ block.content)

/-- A table is written as the count of its attributes and then the attributes. -/
def tableBytes (blocks : List WrittenAttribute) : List UInt8 :=
  bytes16 (.ofNat blocks.length) ++ blocks.flatMap bytes

/-- What an attribute says, by the name that its number stands for. -/
def contribution (pool : ConstantPool) (this : String) (block : WrittenAttribute) :
    Except Fault Contribution := do
  let name ← pool.text block.index
  Contribution.ofAttribute pool this { name, content := block.content }

/-- An attribute goes by a name in a constant pool. -/
def IsNamed (pool : ConstantPool) (name : String) (block : WrittenAttribute) : Prop :=
  pool.text block.index = .ok name

instance (pool : ConstantPool) (name : String) (block : WrittenAttribute) :
    Decidable (block.IsNamed pool name) :=
  inferInstanceAs (Decidable (_ = _))

/-- An attribute of a name that says nothing of a class. -/
def IsUnknown (pool : ConstantPool) (block : WrittenAttribute) : Prop :=
  ∃ name, block.IsNamed pool name ∧ name ∉ Contribution.names

variable {pool : ConstantPool} {this : String}

/-- An attribute of an unknown name says nothing, whatever its content is. -/
theorem contribution_of_isUnknown {block : WrittenAttribute} (unknown : block.IsUnknown pool) :
    block.contribution pool this = .ok .nothing := by
  obtain ⟨name, isNamed, notKnown⟩ := unknown
  rw [contribution, isNamed]
  exact Contribution.ofAttribute_of_unknown notKnown

/-- What is said under a name is said by an attribute whose number stands for the name. -/
theorem isNamed_of_contribution {block : WrittenAttribute} {said : Contribution} {name : String}
    (isSaid : block.contribution pool this = .ok said) (named : said.name? = some name) :
    block.IsNamed pool name := by
  obtain ⟨found, isFound, isSaid⟩ := bind_eq_ok_iff.mp isSaid
  rwa [← Contribution.name_of_ofAttribute isSaid named]

/-- An attribute is read as its name and its content, if its number stands for a name. -/
theorem decode_bytes_eq_ok_iff {block : WrittenAttribute} {found : Attribute}
    {rest left : List UInt8} :
    Attribute.decode pool (block.bytes ++ rest) = .ok (found, left) ↔
      (∃ name, block.IsNamed pool name ∧ { name, content := block.content } = found) ∧
        rest = left := by
  cases named : pool.text block.index with
  | error fault =>
    have refuses : Refuses (Attribute.decode pool) block.bytes fault :=
      .bind (.u2 _) (.first fun rest => by rw [named]; rfl)
    simp [refuses rest, named, IsNamed]
  | ok name =>
    have reads : Reads (Attribute.decode pool) block.bytes { name, content := block.content } := by
      refine .bind (.u2 _) (.after (.lift named) (.bind (.u4 _) (.andThen ?_ (.pure _))))
      rw [UInt32.toNat_ofNat_of_lt' block.fits]
      exact .take _
    simp [reads rest, named, IsNamed]

/-- Attributes are read one after the other as what each of them says. -/
theorem read_eq_ok_iff {blocks : List WrittenAttribute} {summary result : AttributeSummary}
    {rest left : List UInt8} :
    AttributeSummary.read pool (.classBody this) blocks.length summary
        (blocks.flatMap bytes ++ rest) = .ok (result, left) ↔
      (∃ contributions, blocks.mapM (contribution pool this) = .ok contributions ∧
        contributions.foldl Contribution.onto summary = result) ∧ rest = left := by
  induction blocks generalizing summary with
  | nil =>
    rw [List.length_nil, AttributeSummary.read, run_pure_eq_ok_iff]
    simp [pure, Except.pure]
  | cons block others inductionHypothesis =>
    rw [List.length_cons, AttributeSummary.read, List.flatMap_cons, List.append_assoc]
    simp only [run_bind_eq_ok_iff, run_lift_eq_ok_iff, decode_bytes_eq_ok_iff,
      Contribution.absorb_eq_ok_iff]
    constructor
    · rintro ⟨_, _, ⟨⟨name, isNamed, rfl⟩, rfl⟩, _, _, ⟨⟨said, isSaid, rfl⟩, rfl⟩, isRead⟩
      obtain ⟨⟨contributions, areSaid, rfl⟩, rfl⟩ := inductionHypothesis.mp isRead
      refine ⟨⟨said :: contributions, ?_, rfl⟩, rfl⟩
      exact mapM_eq_ok_iff.mpr (.cons (bind_eq_ok_iff.mpr ⟨name, isNamed, isSaid⟩)
        (mapM_eq_ok_iff.mp areSaid))
    · rintro ⟨⟨contributions, areSaid, rfl⟩, rfl⟩
      cases mapM_eq_ok_iff.mp areSaid with
      | cons isSaid othersSaid =>
        obtain ⟨name, isNamed, isSaid⟩ := bind_eq_ok_iff.mp isSaid
        refine ⟨_, _, ⟨⟨name, isNamed, rfl⟩, rfl⟩, _, _, ⟨⟨_, isSaid, rfl⟩, rfl⟩, ?_⟩
        exact inductionHypothesis.mpr ⟨⟨_, mapM_eq_ok_iff.mpr othersSaid, rfl⟩, rfl⟩

/-- A table of attributes is read exactly when each of them is, as what they say together. -/
theorem decode_tableBytes_eq_ok_iff {blocks : List WrittenAttribute} {summary : AttributeSummary}
    {rest left : List UInt8} (countable : blocks.length < 0x10000) :
    AttributeSummary.decode pool (.classBody this) (tableBytes blocks ++ rest) =
        .ok (summary, left) ↔
      (∃ contributions, blocks.mapM (contribution pool this) = .ok contributions ∧
        Contribution.together contributions = summary) ∧ rest = left := by
  have counted : AttributeSummary.decode pool (.classBody this) (tableBytes blocks ++ rest) =
      AttributeSummary.read pool (.classBody this) blocks.length {}
        (blocks.flatMap bytes ++ rest) := by
    rw [tableBytes, List.append_assoc]
    show (Decoder.u2 (bytes16 (.ofNat blocks.length) ++ (blocks.flatMap bytes ++ rest)) >>=
      fun taken => AttributeSummary.read pool (.classBody this) taken.1.toNat {} taken.2) = _
    rw [Reads.u2]
    show AttributeSummary.read pool (.classBody this) (UInt16.ofNat blocks.length).toNat {} _ = _
    rw [UInt16.toNat_ofNat_of_lt' countable]
  simp only [counted, read_eq_ok_iff, Contribution.foldl_onto]

end WrittenAttribute

/-! ## Attributes in another order -/

namespace Contribution

variable {contributions : List Contribution}

/-- All visible annotations. -/
def visibleMarks (contributions : List Contribution) : List AnnotationRecord :=
  (contributions.filterMap visible?).flatten

/-- All invisible annotations. -/
def invisibleMarks (contributions : List Contribution) : List AnnotationRecord :=
  (contributions.filterMap invisible?).flatten

/-- The outer class that the last line with one gives the class. -/
def outerClass? (contributions : List Contribution) : Option String :=
  ((contributions.filterMap inner?).flatten.filterMap InnerLine.outer).getLast?

/-- The enclosing class that is named first. -/
def enclosingClass? (contributions : List Contribution) : Option String :=
  (contributions.filterMap enclosing?).head?.map Prod.fst

/-- Only attributes of one name, which says something, say what is selected. -/
def Selects {α : Type} (select : Contribution → Option α) (name : String) : Prop :=
  name ∈ names ∧ ∀ said, (select said).isSome → said.name? = some name

/-- Everything that can be selected is said by the attributes of one name. -/
theorem selects_by_name :
    Selects visible? "RuntimeVisibleAnnotations" ∧
      Selects invisible? "RuntimeInvisibleAnnotations" ∧ Selects sourceFile? "SourceFile" ∧
      Selects inner? "InnerClasses" ∧ Selects enclosing? "EnclosingMethod" := by
  refine ⟨⟨by decide, ?_⟩, ⟨by decide, ?_⟩, ⟨by decide, ?_⟩, ⟨by decide, ?_⟩, ⟨by decide, ?_⟩⟩
  all_goals
    intro said shown
    cases said <;> first | rfl | cases shown

/-- Nothing is selected from an attribute that says nothing. -/
theorem Selects.nothing_eq_none {α : Type} {select : Contribution → Option α} {name : String}
    (selects : Selects select name) : select nothing = none := by
  cases shown : select nothing with
  | none => rfl
  | some value => cases selects.2 nothing (by rw [shown]; rfl)

/-- Two blocks of annotations follow each other, one way or the other. -/
theorem flatMap_marks_eq_or_eq (visibleOnce : (contributions.filterMap visible?).length ≤ 1)
    (invisibleOnce : (contributions.filterMap invisible?).length ≤ 1) :
    contributions.flatMap marks = visibleMarks contributions ++ invisibleMarks contributions ∨
      contributions.flatMap marks = invisibleMarks contributions ++ visibleMarks contributions := by
  induction contributions with
  | nil => exact .inl rfl
  | cons first others inductionHypothesis =>
    cases first with
    | visible found =>
      have noMore : others.filterMap visible? = [] := by simpa [visible?] using visibleOnce
      have hidden : others.flatMap marks = invisibleMarks others := by
        simpa [visibleMarks, noMore] using inductionHypothesis (by simp [noMore]) invisibleOnce
      left
      simp [visibleMarks, noMore, hidden, marks, visible?, invisibleMarks, invisible?,
        List.filterMap_cons]
    | invisible found =>
      have noMore : others.filterMap invisible? = [] := by simpa [invisible?] using invisibleOnce
      have shown : others.flatMap marks = visibleMarks others := by
        simpa [invisibleMarks, noMore] using inductionHypothesis visibleOnce (by simp [noMore])
      right
      simp [invisibleMarks, noMore, shown, marks, visible?, visibleMarks, invisible?,
        List.filterMap_cons]
    | _ => exact inductionHypothesis visibleOnce invisibleOnce

/-- Each name that says something is the name of at most one. -/
def Singular (contributions : List Contribution) : Prop :=
  ∀ name ∈ names, contributions.countP (fun said => said.name? = some name) ≤ 1

/-- Where no name that says something occurs twice, nothing is selected twice. -/
theorem Singular.length_filterMap_le {α : Type} {select : Contribution → Option α} {name : String}
    (singular : Singular contributions) (selects : Selects select name) :
    (contributions.filterMap select).length ≤ 1 :=
  calc (contributions.filterMap select).length
    _ = contributions.countP (fun said => (select said).isSome) := List.length_filterMap_eq_countP
    _ ≤ contributions.countP (fun said => said.name? = some name) :=
      List.countP_mono_left fun said _ shown => decide_eq_true (selects.2 said shown)
    _ ≤ 1 := singular name selects.1

/-- The same in any order, with any number that say nothing between them. -/
def Rearranges (rearranged contributions : List Contribution) : Prop :=
  ∃ silent, (∀ said ∈ silent, said = nothing) ∧ rearranged.Perm (contributions ++ silent)

/-- What is said at most once is the same in any order. -/
theorem Rearranges.filterMap_eq {α : Type} {select : Contribution → Option α} {name : String}
    {rearranged : List Contribution} (rearranges : Rearranges rearranged contributions)
    (singular : Singular contributions) (selects : Selects select name) :
    rearranged.filterMap select = contributions.filterMap select := by
  obtain ⟨silent, isSilent, perm⟩ := rearranges
  have nothingSelected : silent.filterMap select = [] := by
    rw [List.filterMap_eq_nil_iff]
    intro said isSaid
    rw [isSilent said isSaid, selects.nothing_eq_none]
  have same := perm.filterMap select
  rw [List.filterMap_append, nothingSelected, List.append_nil] at same
  have once := singular.length_filterMap_le selects
  generalize contributions.filterMap select = found at same once
  match found, once with
  | [], _ => exact same.eq_nil
  | [value], _ => exact List.perm_singleton.mp same

/-- Attributes are a rearrangement of themselves. -/
theorem Rearranges.refl (contributions : List Contribution) :
    Rearranges contributions contributions := by
  refine ⟨[], by simp, ?_⟩
  rw [List.append_nil]

/-- In any order, the annotations are those of the two blocks. -/
theorem Rearranges.flatMap_marks {rearranged : List Contribution}
    (rearranges : Rearranges rearranged contributions) (singular : Singular contributions) :
    rearranged.flatMap marks = visibleMarks contributions ++ invisibleMarks contributions ∨
      rearranged.flatMap marks = invisibleMarks contributions ++ visibleMarks contributions := by
  obtain ⟨selectsVisible, selectsInvisible, _⟩ := selects_by_name
  have sameVisible := rearranges.filterMap_eq singular selectsVisible
  have sameInvisible := rearranges.filterMap_eq singular selectsInvisible
  rw [visibleMarks, invisibleMarks, ← sameVisible, ← sameInvisible]
  apply flatMap_marks_eq_or_eq
  · rw [sameVisible]
    exact singular.length_filterMap_le selectsVisible
  · rw [sameInvisible]
    exact singular.length_filterMap_le selectsInvisible

end Contribution

namespace WrittenAttribute

variable {pool : ConstantPool} {this : String} {blocks rearranged : List WrittenAttribute}

/-- The same attributes in any order, with any attributes of unknown names between them. -/
def Rearranges (pool : ConstantPool) (rearranged blocks : List WrittenAttribute) : Prop :=
  ∃ extra, (∀ block ∈ extra, block.IsUnknown pool) ∧ rearranged.Perm (blocks ++ extra)

/-- Each attribute that says something occurs at most once. -/
def Singular (pool : ConstantPool) (blocks : List WrittenAttribute) : Prop :=
  ∀ name ∈ Contribution.names, blocks.countP (fun block => block.IsNamed pool name) ≤ 1

/-- No more is said under a name than there are attributes of this name. -/
theorem countP_name?_le {contributions : List Contribution} {name : String}
    (areSaid : blocks.mapM (contribution pool this) = .ok contributions) :
    contributions.countP (fun said => said.name? = some name) ≤
      blocks.countP (fun block => block.IsNamed pool name) := by
  have eachSaid := mapM_eq_ok_iff.mp areSaid
  clear areSaid
  induction eachSaid with
  | nil => exact Nat.le_refl 0
  | @cons block said _ _ isSaid _ inductionHypothesis =>
    simp only [List.countP_cons, decide_eq_true_eq]
    by_cases named : said.name? = some name
    · rw [if_pos named, if_pos (isNamed_of_contribution isSaid named)]
      exact Nat.succ_le_succ inductionHypothesis
    · rw [if_neg named]
      exact Nat.le_trans inductionHypothesis (Nat.le_add_right _ _)

/-- Attributes in another order say the same, each in its place, and unknown ones say nothing. -/
theorem Rearranges.contributions {contributions : List Contribution}
    (rearranges : Rearranges pool rearranged blocks)
    (areSaid : blocks.mapM (contribution pool this) = .ok contributions) :
    ∃ other, rearranged.mapM (contribution pool this) = .ok other ∧
      Contribution.Rearranges other contributions := by
  obtain ⟨extra, unknown, perm⟩ := rearranges
  have extraSaid : extra.mapM (contribution pool this) = .ok (extra.map fun _ => .nothing) := by
    rw [mapM_eq_ok_iff, List.forall₂_map_right_iff, List.forall₂_same]
    exact fun block isExtra => contribution_of_isUnknown (unknown block isExtra)
  have allSaid : (blocks ++ extra).mapM (contribution pool this) =
      .ok (contributions ++ extra.map fun _ => .nothing) := by
    rw [List.mapM_append, areSaid, extraSaid]
    rfl
  obtain ⟨other, otherSaid, otherPerm⟩ :=
    List.perm_comp_forall₂ perm (mapM_eq_ok_iff.mp allSaid)
  refine ⟨other, mapM_eq_ok_iff.mpr otherSaid, _, ?_, otherPerm⟩
  intro said isSilent
  obtain ⟨_, _, rfl⟩ := List.mem_map.mp isSilent
  rfl

/-- A rearrangement has at least as many attributes. -/
theorem Rearranges.length_le (rearranges : Rearranges pool rearranged blocks) :
    blocks.length ≤ rearranged.length := by
  obtain ⟨extra, _, perm⟩ := rearranges
  rw [perm.length_eq, List.length_append]
  exact Nat.le_add_right _ _

/-- The attributes of a class can be put in any order, and attributes of unknown names can be put
anywhere between them. The source file and the nesting stay the same, and the annotations are those
of the two blocks, one after the other. -/
theorem decode_of_rearranges {rest left : List UInt8} {summary : AttributeSummary}
    (singular : Singular pool blocks) (rearranges : Rearranges pool rearranged blocks)
    (countable : rearranged.length < 0x10000)
    (accepted : AttributeSummary.decode pool (.classBody this) (tableBytes blocks ++ rest) =
      .ok (summary, left)) :
    ∃ contributions other, blocks.mapM (contribution pool this) = .ok contributions ∧
      Reads (AttributeSummary.decode pool (.classBody this)) (tableBytes rearranged) other ∧
      other.sourceFile = summary.sourceFile ∧
      other.nesting = summary.nesting ∧
      summary.nesting.enclosingClass = (Contribution.outerClass? contributions).or
        (Contribution.enclosingClass? contributions) ∧
      ∀ annotations ∈ [summary.annotations, other.annotations],
        annotations = Contribution.visibleMarks contributions ++
            Contribution.invisibleMarks contributions ∨
          annotations = Contribution.invisibleMarks contributions ++
            Contribution.visibleMarks contributions := by
  have fewer : blocks.length < 0x10000 := Nat.lt_of_le_of_lt rearranges.length_le countable
  obtain ⟨⟨contributions, areSaid, rfl⟩, rfl⟩ := (decode_tableBytes_eq_ok_iff fewer).mp accepted
  obtain ⟨other, otherSaid, otherwise⟩ := rearranges.contributions areSaid
  have once : Contribution.Singular contributions := fun name known =>
    Nat.le_trans (countP_name?_le areSaid) (singular name known)
  obtain ⟨_, _, selectsSourceFile, selectsInner, selectsEnclosing⟩ := Contribution.selects_by_name
  refine ⟨contributions, Contribution.together other, areSaid, fun rest =>
    (decode_tableBytes_eq_ok_iff countable).mpr ⟨⟨other, otherSaid, rfl⟩, rfl⟩, ?_, ?_, rfl, ?_⟩
  · rw [Contribution.together, Contribution.together,
      otherwise.filterMap_eq once selectsSourceFile]
  · rw [Contribution.together, Contribution.together, otherwise.filterMap_eq once selectsInner,
      otherwise.filterMap_eq once selectsEnclosing]
  · intro annotations isOne
    rw [List.mem_cons, List.mem_singleton] at isOne
    obtain rfl | rfl := isOne
    · exact (Contribution.Rearranges.refl contributions).flatMap_marks once
    · exact otherwise.flatMap_marks once

/-- A constant pool that names the class `A$B` with other classes, and some attributes. -/
def nestedPool : ConstantPool where
  entries := #[.unusable, .text "A$B", .classRef 1, .text "A", .classRef 3, .text "B", .text "C",
    .classRef 6, .text "InnerClasses", .text "EnclosingMethod", .text "Signature",
    .text "SourceFile", .text "A.java", .text "RuntimeVisibleAnnotations", .text "LV;",
    .text "RuntimeInvisibleAnnotations", .text "LI;"]

/-- Annotations `V` and `I`, a source file, a line that puts the class into `A`, and a place
in `C`. -/
def nestedBlocks : List WrittenAttribute :=
  [⟨13, [0, 1, 0, 14, 0, 0], by decide⟩, ⟨15, [0, 1, 0, 16, 0, 0], by decide⟩,
    ⟨11, [0, 12], by decide⟩, ⟨8, [0, 1, 0, 2, 0, 4, 0, 5, 0, 1], by decide⟩,
    ⟨9, [0, 7, 0, 0], by decide⟩]

/-- The place comes first, then a signature, which says nothing, then the others backwards. -/
def nestedRearranged : List WrittenAttribute :=
  nestedBlocks.drop 4 ++ ⟨10, [0, 3], by decide⟩ :: (nestedBlocks.take 4).reverse

/-- Both are accepted, and in both the class is enclosed by `A`, which the line names, not by
`C`. -/
theorem decode_of_rearranges_nested :
    Singular nestedPool nestedBlocks ∧ Rearranges nestedPool nestedRearranged nestedBlocks ∧
      ∃ summary other,
        AttributeSummary.decode nestedPool (.classBody "A$B") (tableBytes nestedBlocks ++ []) =
          .ok (summary, []) ∧
        Reads (AttributeSummary.decode nestedPool (.classBody "A$B"))
          (tableBytes nestedRearranged) other ∧
        other.sourceFile = some "A.java" ∧ other.nesting.enclosingClass = some "A" := by
  have singular : Singular nestedPool nestedBlocks := by
    unfold Singular
    decide
  have rearranges : Rearranges nestedPool nestedRearranged nestedBlocks := by
    refine ⟨[⟨10, [0, 3], by decide⟩], ?_, by decide⟩
    intro block isExtra
    rw [List.mem_singleton.mp isExtra]
    exact ⟨"Signature", rfl, by decide⟩
  have accepted : ∃ summary : AttributeSummary, AttributeSummary.decode nestedPool
      (.classBody "A$B") (tableBytes nestedBlocks ++ []) = .ok (summary, []) ∧
        summary.sourceFile = some "A.java" ∧ summary.nesting.enclosingClass = some "A" :=
    ⟨_, rfl, rfl, rfl⟩
  obtain ⟨summary, accepted, sourceFile, enclosingClass⟩ := accepted
  obtain ⟨_, other, _, reads, sameFile, sameNesting, _⟩ :=
    decode_of_rearranges singular rearranges (by decide) accepted
  exact ⟨singular, rearranges, summary, other, accepted, reads, sameFile.trans sourceFile,
    sameNesting ▸ enclosingClass⟩

end WrittenAttribute

end ClassAtlas.ClassFile
