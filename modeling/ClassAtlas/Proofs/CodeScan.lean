import ClassAtlas.ClassFile.Code
import ClassAtlas.Proofs.Assembly
import ClassAtlas.Proofs.SourceLines
import ClassAtlas.Proofs.Typing

/-!
# Scanning assembled code

A method body is a program with the ranges that its handlers guard and with attributes, of
which tables of lines are looked into. What it mentions can be read off the program: accesses
to members, and types that are caught, created, cast to, tested for or loaded as constants,
each on the source line of its offset.

Scanning the code attribute that a body is written as finds exactly that. The attribute is
read back part by part; the code is cut where the instructions were placed; and each
instruction, by its opcode, is looked up in the constant pool as what it is or not at all.
-/

namespace ClassAtlas.ClassFile

/-- The access to a member, with its owner spelled with dots. -/
def MemberRef.access (member : MemberRef) (kind : AccessKind) (line : Nat) : AccessRecord :=
  { kind, owner := Name.dotted member.owner, name := member.name
    descriptor := member.descriptor, line }

/-- What an instruction does with a field, static or not. -/
def FieldUse.kind : FieldUse → AccessKind
  | getStatic | getField => .getField
  | putStatic | putField => .setField

/-- Only a special call can construct. -/
def Call.accessKind (name : String) : Call → AccessKind
  | special => if name = "<init>" then .constructorCall else .methodCall
  | virtual | static => .methodCall

/-- A number of the pool stands for a constant that can be loaded. -/
def ConstantPool.HoldsLoaded (pool : ConstantPool) (index : UInt16) : Loaded → Prop
  | .classLiteral name => pool.HoldsClass index name
  | .other => ∃ entry, pool.entries[index.toNat]? = some entry ∧ entry ≠ .unusable ∧
    ∀ name, entry ≠ .classRef name

namespace Operation

/-- The numbers of the pool stand for what the instruction names. -/
def Resolves (pool : ConstantPool) : Operation → Prop
  | field _ index member => pool.HoldsField index member
  | call _ index member | callInterface index member _ _ => pool.HoldsMethod index member
  | useType _ index name | createArrays index name _ => pool.HoldsClass index name
  | loadConstant index constant => pool.HoldsLoaded index.toUInt16 constant
  | loadConstantWide index constant => pool.HoldsLoaded index constant
  | _ => True

/-- The access that an instruction makes on a source line. -/
def access? (line : Nat) : Operation → Option AccessRecord
  | field use _ member => some (member.access use.kind line)
  | call kind _ member => some (member.access (kind.accessKind member.name) line)
  | callInterface _ member _ _ => some (member.access .methodCall line)
  | _ => none

/-- The type that an instruction names on a source line, other than by a member. -/
def type? (line : Nat) : Operation → Option TypeMention
  | useType _ _ name | createArrays _ name _ | loadConstant _ (.classLiteral name)
  | loadConstantWide _ (.classLiteral name) => some { name := Name.dotted name, line }
  | _ => none

/-- What an instruction mentions on a source line. -/
def mention? (line : Nat) (operation : Operation) : Option Mention :=
  ((operation.access? line).map .member).or ((operation.type? line).map .type)

end Operation

namespace Instruction

variable {pool : ConstantPool} {lines : LineTable} {instruction : Instruction}

/-- Two operand bytes are the number that they were written for. -/
theorem index_bytes16 (offset : Nat) (opcode : UInt8) (number : UInt16) (more : List UInt8) :
    Instruction.index { offset, opcode, operands := bytes16 number ++ more } = number :=
  join16_bytes number

/-- A single operand byte is a number by itself. -/
theorem index_byte (offset : Nat) (opcode low : UInt8) :
    Instruction.index { offset, opcode, operands := [low] } = low.toUInt16 := by
  apply UInt16.toNat_inj.mp
  have bound := low.toNat_lt
  simp [Instruction.index, Decoder.join16]

/-- An instruction for fields mentions the field that its number stands for. -/
theorem mention_field {index : UInt16} {member : MemberRef}
    (isField : 0xb2 ≤ instruction.opcode ∧ instruction.opcode ≤ 0xb5)
    (number : instruction.index = index) (holds : pool.HoldsField index member) :
    instruction.mention pool lines = .ok (some (.member (member.access
      (accessKind instruction.opcode member.name) (lines.lineAt instruction.offset)))) := by
  have isMember : instruction.opcode ≤ 0xb9 := UInt8.le_trans isField.2 (by decide)
  rw [mention, if_pos (by simp [isField.1, isMember]), if_pos isField.2, number,
    ConstantPool.fieldRef_eq holds]
  rfl

/-- An instruction for methods mentions the method that its number stands for. -/
theorem mention_method {index : UInt16} {member : MemberRef}
    (isMethod : 0xb6 ≤ instruction.opcode ∧ instruction.opcode ≤ 0xb9)
    (number : instruction.index = index) (holds : pool.HoldsMethod index member) :
    instruction.mention pool lines = .ok (some (.member (member.access
      (accessKind instruction.opcode member.name) (lines.lineAt instruction.offset)))) := by
  have isMember : 0xb2 ≤ instruction.opcode := UInt8.le_trans (by decide) isMethod.1
  have noField : ¬ instruction.opcode ≤ 0xb5 := fun isField =>
    absurd (UInt8.le_trans isMethod.1 isField) (by decide)
  rw [mention, if_pos (by simp [isMethod.2, isMember]), if_neg noField, number,
    ConstantPool.methodRef_eq holds]
  rfl

/-- An instruction for types mentions the class that its number stands for, with dots. -/
theorem mention_type {index : UInt16} {name : String}
    (isType : instruction.opcode ∈ [0xbb, 0xbd, 0xc0, 0xc1, 0xc5])
    (number : instruction.index = index) (holds : pool.HoldsClass index name) :
    instruction.mention pool lines = .ok (some (.type
      { name := Name.dotted name, line := lines.lineAt instruction.offset })) := by
  have noMember : ¬ (0xb2 ≤ instruction.opcode && instruction.opcode ≤ 0xb9) = true := by
    simp only [List.mem_cons, List.not_mem_nil, or_false] at isType
    rcases isType with same | same | same | same | same <;> rw [same] <;> decide
  rw [mention, if_neg noMember, if_pos isType, number, ConstantPool.dottedClassName_eq holds]
  rfl

/-- Loading a constant mentions a type exactly if the constant is a class. -/
theorem mention_constant {index : UInt16} {constant : Loaded}
    (isConstant : instruction.opcode = 0x12 ∨ instruction.opcode = 0x13)
    (number : instruction.index = index) (holds : pool.HoldsLoaded index constant) :
    instruction.mention pool lines = .ok (match constant with
      | .classLiteral name =>
        some (.type { name := Name.dotted name, line := lines.lineAt instruction.offset })
      | .other => none) := by
  have noMember : ¬ (0xb2 ≤ instruction.opcode && instruction.opcode ≤ 0xb9) = true := by
    rcases isConstant with same | same <;> rw [same] <;> decide
  have noType : instruction.opcode ∉ [0xbb, 0xbd, 0xc0, 0xc1, 0xc5] := by
    rcases isConstant with same | same <;> rw [same] <;> decide
  rw [mention, if_neg noMember, if_neg noType, if_pos (by simpa using isConstant), number]
  cases constant with
  | classLiteral name =>
    obtain ⟨text, stands, _⟩ := id holds
    rw [ConstantPool.get_eq stands (by simp)]
    simp only [ConstantPool.dottedClassName_eq holds]
    rfl
  | other =>
    obtain ⟨entry, stands, usable, noClass⟩ := holds
    rw [ConstantPool.get_eq stands usable]
    cases entry with
    | classRef name => exact absurd rfl (noClass name)
    | _ => rfl

/-- Whether instructions with an opcode name neither a member nor a type nor a constant. -/
def isSilent (opcode : UInt8) : Bool :=
  !(0xb2 ≤ opcode && opcode ≤ 0xb9) && opcode ∉ [0xbb, 0xbd, 0xc0, 0xc1, 0xc5] &&
    !(opcode = 0x12 || opcode = 0x13)

/-- A silent instruction mentions nothing. -/
theorem mention_silent (silent : isSilent instruction.opcode = true) :
    instruction.mention pool lines = .ok none := by
  simp only [isSilent, Bool.and_eq_true, Bool.not_eq_true', decide_eq_true_eq] at silent
  rw [mention, if_neg (by simp [silent.1.1]), if_neg silent.1.2, if_neg (by simp [silent.2])]
  rfl

/-- Instructions without operands are silent. -/
theorem isSilent_plain {opcode : UInt8} (listed : isPlain opcode = true) :
    isSilent opcode = true := by
  have ranges := toNat_of_isPlain listed
  simp only [isSilent, List.mem_cons, List.not_mem_nil, ← UInt8.toNat_inj, UInt8.le_iff_toNat_le,
    UInt8.reduceToNat, Bool.and_eq_true, Bool.not_eq_true', decide_eq_true_eq, Bool.or_eq_false_iff,
    Bool.and_eq_false_iff, decide_eq_false_iff_not, or_false]
  omega

end Instruction

/-- The instructions for fields stand together. -/
theorem FieldUse.opcode_range (use : FieldUse) : 0xb2 ≤ use.opcode ∧ use.opcode ≤ 0xb5 := by
  cases use <;> decide

/-- The first byte of an instruction for fields tells whether the field is read or set. -/
theorem FieldUse.accessKind_opcode (use : FieldUse) (name : String) :
    accessKind use.opcode name = use.kind := by
  cases use <;> rfl

/-- The instructions for calls stand together. -/
theorem Call.opcode_range (kind : Call) : 0xb6 ≤ kind.opcode ∧ kind.opcode ≤ 0xb9 := by
  cases kind <;> decide

/-- The first byte of a call and the name of the method tell whether something is constructed. -/
theorem Call.accessKind_opcode (kind : Call) (name : String) :
    ClassFile.accessKind kind.opcode name = kind.accessKind name := by
  cases kind with
  | special => simp [ClassFile.accessKind, Call.accessKind, opcode]
  | virtual | static => rfl

/-- The instructions for types are among those that mention one. -/
theorem TypeUse.opcode_mem (use : TypeUse) : use.opcode ∈ [0xbb, 0xbd, 0xc0, 0xc1, 0xc5] := by
  cases use <;> decide

namespace Operation

open Instruction

/-- An instruction whose operands resolve is found to mention what it names. -/
theorem mention_placedAt {pool : ConstantPool} {operation : Operation}
    (resolves : operation.Resolves pool) (lines : LineTable) (offset : Nat) :
    (operation.placedAt offset).mention pool lines =
      .ok (operation.mention? (lines.lineAt offset)) := by
  cases operation with
  | plain opcode listed => exact mention_silent (isSilent_plain listed)
  | loadConstant index constant =>
    refine (mention_constant (Or.inl rfl) (index_byte _ _ _) resolves).trans ?_
    cases constant <;> rfl
  | loadConstantWide index constant =>
    refine (mention_constant (Or.inr rfl) (index_bytes16 _ _ _ []) resolves).trans ?_
    cases constant <;> rfl
  | load type slot => exact mention_silent (by cases type <;> rfl)
  | store type slot => exact mention_silent (by cases type <;> rfl)
  | jump condition distance => exact mention_silent (by cases condition <;> rfl)
  | jumpFar subroutine distance => exact mention_silent (by cases subroutine <;> rfl)
  | field use index member =>
    refine (mention_field use.opcode_range (index_bytes16 _ _ _ []) resolves).trans ?_
    rw [mention?, access?, ← use.accessKind_opcode member.name]
    rfl
  | call kind index member =>
    refine (mention_method kind.opcode_range (index_bytes16 _ _ _ []) resolves).trans ?_
    rw [mention?, access?, ← kind.accessKind_opcode member.name]
    rfl
  | callInterface index member count reserved =>
    have isMethod : (0xb6 : UInt8) ≤ 0xb9 ∧ (0xb9 : UInt8) ≤ 0xb9 := by decide
    exact mention_method isMethod (index_bytes16 _ _ _ [count, reserved]) resolves
  | useType use index name => exact mention_type use.opcode_mem (index_bytes16 _ _ _ []) resolves
  | createArrays index name dimensions =>
    have isType : (0xc5 : UInt8) ∈ [0xbb, 0xbd, 0xc0, 0xc1, 0xc5] := by decide
    exact mention_type isType (index_bytes16 _ _ _ [dimensions]) resolves
  | _ => exact mention_silent rfl

/-- A mention holds the access of an instruction, if there is one, -/
theorem access?_mention? (operation : Operation) (line : Nat) :
    (operation.mention? line).bind Mention.access? = operation.access? line := by
  cases operation with
  | loadConstant index constant | loadConstantWide index constant => cases constant <;> rfl
  | _ => rfl

/-- and the type otherwise. -/
theorem type?_mention? (operation : Operation) (line : Nat) :
    (operation.mention? line).bind Mention.type? = operation.type? line := by
  cases operation with
  | loadConstant index constant | loadConstantWide index constant => cases constant <;> rfl
  | _ => rfl

/-- Placing a program keeps its instructions. -/
theorem mem_of_mem_place {program : List Operation} {offset : Nat} {placed : Nat × Operation}
    (isPlaced : placed ∈ place offset program) : placed.2 ∈ program := by
  induction program generalizing offset with
  | nil => simp [place] at isPlaced
  | cons operation rest inductionHypothesis =>
    rcases List.mem_cons.mp isPlaced with rfl | later
    · exact List.mem_cons_self
    · exact List.mem_cons_of_mem _ (inductionHypothesis later)

/-- The instructions of a program are found where they are placed, each for what it names. -/
theorem mapM_mention_place {pool : ConstantPool} {program : List Operation}
    (resolves : ∀ operation ∈ program, operation.Resolves pool) (lines : LineTable) :
    ((place 0 program).map fun placed => placed.2.placedAt placed.1).mapM
        (Instruction.mention pool lines) =
      .ok ((place 0 program).map fun placed => placed.2.mention? (lines.lineAt placed.1)) := by
  rw [mapM_eq_ok_iff, List.forall₂_map_left_iff, List.forall₂_map_right_iff, List.forall₂_same]
  intro placed isPlaced
  exact mention_placedAt (resolves placed.2 (mem_of_mem_place isPlaced)) lines placed.1

end Operation

/-- A range of code with the place to go on after an exception in it, and the type of the
exceptions that are caught; a range that names no type catches all of them. -/
structure GuardedRange where
  start : UInt16
  stop : UInt16
  target : UInt16
  caught : Option (UInt16 × String)

namespace GuardedRange

/-- The bytes of a guarded range: three offsets and the number of the type, or zero. -/
def bytes (range : GuardedRange) : List UInt8 :=
  bytes16 range.start ++ bytes16 range.stop ++
    (bytes16 range.target ++ bytes16 ((range.caught.map Prod.fst).getD 0))

/-- The number of the pool stands for the type that is caught. -/
def Resolves (pool : ConstantPool) (range : GuardedRange) : Prop :=
  ∀ index name, range.caught = some (index, name) → index ≠ 0 ∧ pool.HoldsClass index name

/-- The type that is caught, on the line of the place to go on. -/
def type? (lineOf : Nat → Nat) (range : GuardedRange) : Option TypeMention :=
  range.caught.map fun caught =>
    { name := Name.dotted caught.2, line := lineOf range.target.toNat }

/-- The handler that a range is read as. -/
def handler? (range : GuardedRange) : Option Handler :=
  range.caught.map fun caught =>
    { offset := range.target.toNat, caught := Name.dotted caught.2 }

/-- A guarded range is read as its handler, if it has a type that resolves. -/
theorem reads {pool : ConstantPool} {range : GuardedRange} (resolves : range.Resolves pool) :
    Reads (Handler.decode pool) range.bytes range.handler? := by
  refine .bind (.skip (bytes16 range.start ++ bytes16 range.stop)) (.bind (.u2 _) ?_)
  refine .andThen (.u2 _) ?_
  rw [handler?]
  cases isCaught : range.caught with
  | none => exact .pure _
  | some caught =>
    obtain ⟨named, holds⟩ := resolves caught.1 caught.2 isCaught
    have notAll : ¬ ((some caught).map Prod.fst).getD 0 = 0 := named
    rw [if_neg notAll]
    exact .after (.lift (ConstantPool.dottedClassName_eq holds)) (.pure _)

end GuardedRange

/-- An attribute of a method body: a table of offsets with their lines, or any other. -/
inductive BodyAttribute
  | lineNumbers (index : UInt16) (rows : List (UInt16 × UInt16)) (fits : rows.length < 0x10000)
  | other (index : UInt16) (name : String) (distinct : name ≠ "LineNumberTable")
      (content : List UInt8) (fits : content.length < 0x100000000)

namespace BodyAttribute

/-- The number of the pool that stands for the name of an attribute. -/
def index : BodyAttribute → UInt16
  | lineNumbers index _ _ | other index _ _ _ _ => index

/-- The name of an attribute. -/
def name : BodyAttribute → String
  | lineNumbers _ _ _ => "LineNumberTable"
  | other _ name _ _ _ => name

/-- The content of an attribute: the rows of a line table, or any bytes. -/
def content : BodyAttribute → List UInt8
  | lineNumbers _ rows _ =>
    bytes16 (.ofNat rows.length) ++ rows.flatMap fun row => bytes16 row.1 ++ bytes16 row.2
  | other _ _ _ content _ => content

/-- The bytes of an attribute: the number of its name, the length of its content, and the
content. -/
def bytes (block : BodyAttribute) : List UInt8 :=
  bytes16 block.index ++ (bytes32 (.ofNat block.content.length) ++ block.content)

/-- The number of the pool stands for the name. -/
def Resolves (pool : ConstantPool) (block : BodyAttribute) : Prop :=
  pool.HoldsText block.index block.name

/-- What an attribute says of lines. -/
def entries : BodyAttribute → List LineEntry
  | lineNumbers _ rows _ => rows.map fun row => { start := row.1.toNat, line := row.2.toNat }
  | other _ _ _ _ _ => []

/-- The length of a content fits into four bytes. -/
theorem length_content_lt (block : BodyAttribute) : block.content.length < 0x100000000 := by
  cases block with
  | lineNumbers index rows fits =>
    have length := length_flatMap_of_width
      (fun row : UInt16 × UInt16 => (by simp : (bytes16 row.1 ++ bytes16 row.2).length = 4)) rows
    rw [content, List.length_append, length, length_bytes16]
    omega
  | other index name distinct content fits => exact fits

/-- An attribute whose name resolves is read as its name and its content. -/
theorem reads {pool : ConstantPool} {block : BodyAttribute} (resolves : block.Resolves pool) :
    Reads (Attribute.decode pool) block.bytes { name := block.name, content := block.content } := by
  refine .bind (.u2 _) (.after (.lift (ConstantPool.text_eq resolves)) (.bind (.u4 _) ?_))
  rw [UInt32.toNat_ofNat_of_lt' block.length_content_lt]
  exact .andThen (.take _) (.pure _)

/-- Only line tables say something of lines. -/
theorem ofAttribute_eq (block : BodyAttribute) :
    LineEntry.ofAttribute { name := block.name, content := block.content } =
      .ok block.entries := by
  cases block with
  | lineNumbers index rows fits =>
    refine (if_pos rfl).trans (Reads.whole (.counted fits fun row _ => ?_))
    exact .bind (.u2 row.1) (.andThen (.u2 row.2) (.pure _))
  | other index name distinct content fits =>
    exact if_neg distinct

end BodyAttribute

/-- A code attribute: sizes of the stack and of the local variables, any bytes as code, guarded
ranges and attributes, not more than can be counted. -/
structure CodeBlock where
  stack : UInt16
  locals : UInt16
  code : List UInt8
  guarded : List GuardedRange
  attributes : List BodyAttribute
  codeFits : code.length < 0x100000000
  guardedFits : guarded.length < 0x10000
  attributesFit : attributes.length < 0x10000

namespace CodeBlock

/-- The content of the attribute. -/
def bytes (block : CodeBlock) : List UInt8 :=
  bytes16 block.stack ++ bytes16 block.locals ++
    (bytes32 (.ofNat block.code.length) ++ (block.code ++
      (bytes16 (.ofNat block.guarded.length) ++ block.guarded.flatMap GuardedRange.bytes ++
        (bytes16 (.ofNat block.attributes.length) ++
          block.attributes.flatMap BodyAttribute.bytes))))

/-- The numbers of the pool stand for the types and for the names of the attributes. -/
structure Resolves (pool : ConstantPool) (block : CodeBlock) : Prop where
  guarded : ∀ range ∈ block.guarded, range.Resolves pool
  attributes : ∀ part ∈ block.attributes, part.Resolves pool

/-- What all tables together say of lines. -/
def entries (block : CodeBlock) : List LineEntry :=
  block.attributes.flatMap BodyAttribute.entries

/-- The parts that a code attribute is read as. -/
def parts (block : CodeBlock) : CodeBody where
  code := block.code
  handlers := block.guarded.filterMap GuardedRange.handler?
  lines := .ofEntries block.entries

/-- A code attribute whose numbers resolve is read as its parts. -/
theorem reads {pool : ConstantPool} {block : CodeBlock} (resolves : block.Resolves pool) :
    Reads (CodeBody.decode pool) block.bytes block.parts := by
  refine .bind (.skip (bytes16 block.stack ++ bytes16 block.locals)) (.bind (.u4 _) ?_)
  rw [UInt32.toNat_ofNat_of_lt' block.codeFits]
  refine .bind (.take block.code) (.bind (.counted block.guardedFits fun range isRange =>
    GuardedRange.reads (resolves.guarded range isRange)) ?_)
  refine .andThen (.counted block.attributesFit fun part isPart =>
    .andThen (BodyAttribute.reads (resolves.attributes part isPart))
      (.lift part.ofAttribute_eq)) ?_
  rw [List.filterMap_map, ← List.flatMap_def]
  exact .pure _

end CodeBlock

/-- A method body: sizes of the stack and of the local variables, a program, guarded ranges and
attributes, not more than can be counted. -/
structure MethodBody where
  stack : UInt16
  locals : UInt16
  program : List Operation
  guarded : List GuardedRange
  attributes : List BodyAttribute
  programFits : (Operation.assemble 0 program).length < 0x100000000
  guardedFits : guarded.length < 0x10000
  attributesFit : attributes.length < 0x10000

namespace MethodBody

/-- The code of a method body. -/
def code (body : MethodBody) : List UInt8 := Operation.assemble 0 body.program

/-- The code attribute of a method body. -/
def block (body : MethodBody) : CodeBlock where
  stack := body.stack
  locals := body.locals
  code := body.code
  guarded := body.guarded
  attributes := body.attributes
  codeFits := body.programFits
  guardedFits := body.guardedFits
  attributesFit := body.attributesFit

/-- The content of a code attribute for a method body. -/
def bytes (body : MethodBody) : List UInt8 := body.block.bytes

/-- All numbers of the pool stand for what the body says they do. -/
structure Resolves (pool : ConstantPool) (body : MethodBody) : Prop where
  program : ∀ operation ∈ body.program, operation.Resolves pool
  guarded : ∀ range ∈ body.guarded, range.Resolves pool
  attributes : ∀ block ∈ body.attributes, block.Resolves pool

/-- What all tables of a body together say of lines. -/
def entries (body : MethodBody) : List LineEntry := body.block.entries

/-- The source line of an offset. -/
def lineOf (body : MethodBody) (offset : Nat) : Nat := ClassFile.lineOf body.entries offset

/-- The instructions with their offsets. -/
def placed (body : MethodBody) : List (Nat × Operation) := Operation.place 0 body.program

/-- What a method body mentions, read off its program and its guarded ranges. -/
def summary (body : MethodBody) : CodeSummary where
  accesses := body.placed.filterMap fun placed => placed.2.access? (body.lineOf placed.1)
  typeMentions := body.guarded.filterMap (GuardedRange.type? body.lineOf) ++
    body.placed.filterMap fun placed => placed.2.type? (body.lineOf placed.1)
  firstLine := leastLine body.entries

/-- The parts that a method body is read as. -/
def parts (body : MethodBody) : CodeBody := body.block.parts

/-- The code attribute of a method body whose numbers resolve is read as its parts. -/
theorem reads {pool : ConstantPool} {body : MethodBody} (resolves : body.Resolves pool) :
    Reads (CodeBody.decode pool) body.bytes body.parts :=
  CodeBlock.reads ⟨resolves.guarded, resolves.attributes⟩

/-- The table that was read gives the lines of the body. -/
theorem lineAt_parts (body : MethodBody) (offset : Nat) :
    body.parts.lines.lineAt offset = body.lineOf offset :=
  LineTable.lineAt_ofEntries body.entries offset

/-- The instructions of a body are found, and each mentions what it names on its line. -/
theorem mentions_parts {pool : ConstantPool} {body : MethodBody} (resolves : body.Resolves pool) :
    body.parts.mentions pool =
      .ok (body.placed.filterMap fun placed => placed.2.mention? (body.lineOf placed.1)) := by
  have found := Operation.mapM_mention_place resolves.program body.parts.lines
  simp only [lineAt_parts] at found
  have listing : Listing.ofCode 0 body.parts.code =
      { instructions := body.placed.map fun placed => placed.2.placedAt placed.1, fault := none } :=
    Listing.ofCode_assemble body.program 0
  simp only [CodeBody.mentions, listing, placed, found]
  show Except.ok (List.filterMap id _) = _
  rw [List.filterMap_map]
  rfl

/-- The types that handlers catch are those of the guarded ranges. -/
theorem caught_parts (body : MethodBody) :
    (body.parts.handlers.map fun handler =>
      { name := handler.caught, line := body.parts.lines.lineAt handler.offset : TypeMention }) =
      body.guarded.filterMap (GuardedRange.type? body.lineOf) := by
  simp only [lineAt_parts]
  rw [parts, CodeBlock.parts, List.map_filterMap]
  refine List.filterMap_congr fun range _ => ?_
  rw [GuardedRange.handler?, GuardedRange.type?, Option.map_map]
  rfl

end MethodBody

/-- Scanning the code attribute of a method body whose operands resolve succeeds and gives what
its instructions and guarded ranges mention, in order. -/
theorem CodeSummary.ofContent_bytes {pool : ConstantPool} {body : MethodBody}
    (resolves : body.Resolves pool) :
    CodeSummary.ofContent pool body.bytes = .ok body.summary := by
  rw [CodeSummary.ofContent, (MethodBody.reads resolves).whole]
  show (body.parts.mentions pool >>= fun mentions => _) = _
  rw [MethodBody.mentions_parts resolves]
  simp only [MethodBody.caught_parts]
  show Except.ok (_ : CodeSummary) = _
  simp only [List.filterMap_filterMap, Operation.access?_mention?, Operation.type?_mention?]
  rw [MethodBody.summary, ← LineTable.firstLine_ofEntries]
  rfl

/-- A pool that holds a class and its constructor. -/
def constructorPool : ConstantPool where
  entries := #[.unusable, .text "A", .classRef 1, .text "<init>", .text "()V", .nameAndType 3 4,
    .methodRef 2 5, .text "LineNumberTable"]

/-- A body that calls a constructor, switches, loads a class and widens an increment. -/
def constructorBody : MethodBody where
  stack := 2
  locals := 2
  program := [.plain 0x2a rfl,
    .call .special 6 { owner := "A", name := "<init>", descriptor := "()V" }, .plain 0x03 rfl,
    .tableSwitch { fallback := 23, low := 0, high := 1, targets := [23, 25], ordered := by decide,
                   full := by decide },
    .loadConstant 2 (.classLiteral "A"), .wideIncrement 1 300, .plain 0xb1 rfl]
  guarded := [{ start := 0, stop := 4, target := 4, caught := some (2, "A") },
    { start := 4, stop := 28, target := 36, caught := none }]
  attributes := [.lineNumbers 7 [(28, 9), (0, 4)] (by decide)]
  programFits := by decide
  guardedFits := by decide
  attributesFit := by decide

/-- The pool holds all that this body names. -/
theorem constructorBody_resolves : constructorBody.Resolves constructorPool := by
  have holdsClass : constructorPool.HoldsClass 2 "A" := ⟨1, rfl, rfl⟩
  refine ⟨?_, ?_, ?_⟩
  · simp only [constructorBody, List.forall_mem_cons, List.not_mem_nil, false_imp_iff,
      implies_true, and_true]
    exact ⟨trivial, ⟨2, 5, Or.inl rfl, holdsClass, 3, 4, rfl, rfl, rfl⟩, trivial, trivial,
      holdsClass, trivial, trivial⟩
  · simp only [constructorBody, List.forall_mem_cons, List.not_mem_nil, false_imp_iff,
      implies_true, and_true]
    constructor
    · rintro index name ⟨⟩
      exact ⟨by decide, holdsClass⟩
    · rintro index name ⟨⟩
  · simp only [constructorBody, List.forall_mem_cons, List.not_mem_nil, false_imp_iff,
      implies_true, and_true]
    rfl

/-- The body constructs an `A` on line 4, catches and loads the class `A`, and begins on line 4. -/
theorem CodeSummary.ofContent_constructorBody :
    constructorBody.Resolves constructorPool ∧
    CodeSummary.ofContent constructorPool constructorBody.bytes = .ok {
      accesses := [{ kind := .constructorCall, owner := "A", name := "<init>", descriptor := "()V"
                     line := 4 }]
      typeMentions := [{ name := "A", line := 4 }, { name := "A", line := 9 }]
      firstLine := some 4 } :=
  ⟨constructorBody_resolves, (CodeSummary.ofContent_bytes constructorBody_resolves).trans rfl⟩

end ClassAtlas.ClassFile
