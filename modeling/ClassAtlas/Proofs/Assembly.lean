import ClassAtlas.ClassFile.Instruction
import ClassAtlas.Proofs.Encoding

/-!
# Assembling code

The instruction set, by what each instruction means and not by how long it is, and how a list
of instructions is written as code. Operands of the constant pool come with what they stand
for, so that the text of a program tells what it refers to. An instruction is written as its
opcode and its operands; only the switches look at the offset where they stand, since their
words start at a multiple of four.

A listing of assembled code gives back every instruction, where it was placed.
-/

namespace ClassAtlas.ClassFile

/-- The types that local variables are loaded and stored as. -/
inductive LocalType
  | int | long | float | double | reference
  deriving DecidableEq, Repr

/-- The place of a type among the opcodes of a load or store. -/
def LocalType.rank : LocalType → UInt8
  | int => 0
  | long => 1
  | float => 2
  | double => 3
  | reference => 4

/-- The jumps over a distance of two bytes. -/
inductive Jump
  | ifEqual | ifNotEqual | ifLess | ifNotLess | ifGreater | ifNotGreater
  | ifIntEqual | ifIntNotEqual | ifIntLess | ifIntNotLess | ifIntGreater | ifIntNotGreater
  | ifSame | ifNotSame | always | subroutine | ifNull | ifNotNull
  deriving DecidableEq, Repr

/-- The first byte of a jump. -/
def Jump.opcode : Jump → UInt8
  | ifEqual => 0x99
  | ifNotEqual => 0x9a
  | ifLess => 0x9b
  | ifNotLess => 0x9c
  | ifGreater => 0x9d
  | ifNotGreater => 0x9e
  | ifIntEqual => 0x9f
  | ifIntNotEqual => 0xa0
  | ifIntLess => 0xa1
  | ifIntNotLess => 0xa2
  | ifIntGreater => 0xa3
  | ifIntNotGreater => 0xa4
  | ifSame => 0xa5
  | ifNotSame => 0xa6
  | always => 0xa7
  | subroutine => 0xa8
  | ifNull => 0xc6
  | ifNotNull => 0xc7

/-- How a field is used. -/
inductive FieldUse
  | getStatic | putStatic | getField | putField
  deriving DecidableEq, Repr

/-- The first byte of an access to a field. -/
def FieldUse.opcode : FieldUse → UInt8
  | getStatic => 0xb2
  | putStatic => 0xb3
  | getField => 0xb4
  | putField => 0xb5

/-- How a method is called, except through an interface. -/
inductive Call
  | virtual | special | static
  deriving DecidableEq, Repr

/-- The first byte of a call. -/
def Call.opcode : Call → UInt8
  | virtual => 0xb6
  | special => 0xb7
  | static => 0xb8

/-- How a type is used. -/
inductive TypeUse
  | create | createArray | cast | test
  deriving DecidableEq, Repr

/-- The first byte of a use of a type. -/
def TypeUse.opcode : TypeUse → UInt8
  | create => 0xbb
  | createArray => 0xbd
  | cast => 0xc0
  | test => 0xc1

/-- What a constant that is loaded stands for. -/
inductive Loaded
  | classLiteral (name : String)
  | other
  deriving DecidableEq, Repr

/-- A switch over all keys of a range that is not empty. -/
structure TableSwitch where
  fallback : UInt32
  low : Int32
  high : Int32
  targets : List UInt32
  ordered : low.toInt ≤ high.toInt
  full : (targets.length : Int) = high.toInt - low.toInt + 1

/-- A switch over keys with their targets, as many as a signed word can count. -/
structure LookupSwitch where
  fallback : UInt32
  pairs : List (UInt32 × UInt32)
  countable : pairs.length < 0x80000000

/-- The opcodes without operands: constants, loads of the first variables and of array
elements, stores of the same kinds with operations on the stack and arithmetic, conversions and
comparisons, returns, the length of arrays and throwing, monitors. -/
def plainRanges : List (UInt8 × UInt8) :=
  [(0x00, 0x0f), (0x1a, 0x35), (0x3b, 0x83), (0x85, 0x98), (0xac, 0xb1), (0xbe, 0xbf),
    (0xc2, 0xc3)]

/-- Whether an opcode has no operands. -/
def isPlain (opcode : UInt8) : Bool :=
  plainRanges.any fun range => range.1 ≤ opcode && opcode ≤ range.2

/-- The instructions without operands, by ranges of their first bytes. -/
theorem toNat_of_isPlain {opcode : UInt8} (listed : isPlain opcode = true) :
    opcode.toNat ≤ 0x0f ∨ (0x1a ≤ opcode.toNat ∧ opcode.toNat ≤ 0x35) ∨
      (0x3b ≤ opcode.toNat ∧ opcode.toNat ≤ 0x83) ∨ (0x85 ≤ opcode.toNat ∧ opcode.toNat ≤ 0x98) ∨
      (0xac ≤ opcode.toNat ∧ opcode.toNat ≤ 0xb1) ∨ (0xbe ≤ opcode.toNat ∧ opcode.toNat ≤ 0xbf) ∨
      (0xc2 ≤ opcode.toNat ∧ opcode.toNat ≤ 0xc3) := by
  simpa [isPlain, plainRanges, UInt8.le_iff_toNat_le] using listed

/-- The instructions with their operands. Where an operand is a number of the constant pool
that names a member or a type, what it names stands beside it. -/
inductive Operation
  | plain (opcode : UInt8) (listed : isPlain opcode = true)
  | pushByte (value : UInt8)
  | pushShort (value : UInt16)
  | loadConstant (index : UInt8) (constant : Loaded)
  | loadConstantWide (index : UInt16) (constant : Loaded)
  | loadLongConstant (index : UInt16)
  | load (type : LocalType) (slot : UInt8)
  | store (type : LocalType) (slot : UInt8)
  | increment (slot amount : UInt8)
  | jump (condition : Jump) (distance : UInt16)
  | jumpFar (subroutine : Bool) (distance : UInt32)
  | ret (slot : UInt8)
  | tableSwitch (table : TableSwitch)
  | lookupSwitch (table : LookupSwitch)
  | field (use : FieldUse) (index : UInt16) (member : MemberRef)
  | call (kind : Call) (index : UInt16) (member : MemberRef)
  | callInterface (index : UInt16) (member : MemberRef) (count reserved : UInt8)
  | callDynamic (index reserved : UInt16)
  | useType (use : TypeUse) (index : UInt16) (name : String)
  | createPrimitives (element : UInt8)
  | createArrays (index : UInt16) (name : String) (dimensions : UInt8)
  | wideLoad (type : LocalType) (slot : UInt16)
  | wideStore (type : LocalType) (slot : UInt16)
  | wideRet (slot : UInt16)
  | wideIncrement (slot amount : UInt16)

namespace Operation

/-- The first byte of an instruction. -/
def opcode : Operation → UInt8
  | plain opcode _ => opcode
  | pushByte _ => 0x10
  | pushShort _ => 0x11
  | loadConstant _ _ => 0x12
  | loadConstantWide _ _ => 0x13
  | loadLongConstant _ => 0x14
  | load type _ => 0x15 + type.rank
  | store type _ => 0x36 + type.rank
  | increment _ _ => 0x84
  | jump condition _ => condition.opcode
  | jumpFar subroutine _ => if subroutine then 0xc9 else 0xc8
  | ret _ => 0xa9
  | tableSwitch _ => 0xaa
  | lookupSwitch _ => 0xab
  | field use _ _ => use.opcode
  | call kind _ _ => kind.opcode
  | callInterface _ _ _ _ => 0xb9
  | callDynamic _ _ => 0xba
  | useType use _ _ => use.opcode
  | createPrimitives _ => 0xbc
  | createArrays _ _ _ => 0xc5
  | wideLoad _ _ | wideStore _ _ | wideRet _ | wideIncrement _ _ => 0xc4

/-- The bytes that bring the words of a switch at an offset to a multiple of four. -/
def aligning (offset : Nat) : List UInt8 := List.replicate (3 - offset % 4) 0

/-- The operand bytes of an instruction that starts at an offset. -/
def operands (offset : Nat) : Operation → List UInt8
  | plain _ _ => []
  | pushByte value => [value]
  | pushShort value => bytes16 value
  | loadConstant index _ => [index]
  | loadConstantWide index _ => bytes16 index
  | loadLongConstant index => bytes16 index
  | load _ slot | store _ slot | ret slot => [slot]
  | increment slot amount => [slot, amount]
  | jump _ distance => bytes16 distance
  | jumpFar _ distance => bytes32 distance
  | tableSwitch table =>
    aligning offset ++ bytes32 table.fallback ++ bytes32 table.low.toUInt32 ++
      bytes32 table.high.toUInt32 ++ table.targets.flatMap bytes32
  | lookupSwitch table =>
    aligning offset ++ bytes32 table.fallback ++ bytes32 (.ofNat table.pairs.length) ++
      table.pairs.flatMap fun pair => bytes32 pair.1 ++ bytes32 pair.2
  | field _ index _ | call _ index _ | useType _ index _ => bytes16 index
  | callInterface index _ count reserved => bytes16 index ++ [count, reserved]
  | callDynamic index reserved => bytes16 index ++ bytes16 reserved
  | createPrimitives element => [element]
  | createArrays index _ dimensions => bytes16 index ++ [dimensions]
  | wideLoad type slot => (0x15 + type.rank) :: bytes16 slot
  | wideStore type slot => (0x36 + type.rank) :: bytes16 slot
  | wideRet slot => 0xa9 :: bytes16 slot
  | wideIncrement slot amount => 0x84 :: bytes16 slot ++ bytes16 amount

/-- The instruction as it stands at an offset. -/
def placedAt (operation : Operation) (offset : Nat) : Instruction :=
  { offset, opcode := operation.opcode, operands := operation.operands offset }

/-- A program, each instruction with the offset after the one before it. -/
def place (offset : Nat) : List Operation → List (Nat × Operation)
  | [] => []
  | operation :: rest =>
    (offset, operation) :: place (offset + (operation.placedAt offset).bytes.length) rest

/-- The code of a program that starts at an offset. -/
def assemble (offset : Nat) (program : List Operation) : List UInt8 :=
  (place offset program).flatMap fun placed => (placed.2.placedAt placed.1).bytes

end Operation

namespace Instruction

/-- An instruction without operands is known as such. -/
theorem shape_plain {opcode : UInt8} (listed : isPlain opcode = true) :
    shape opcode = .fixed 0 := by
  have ranges := toNat_of_isPlain listed
  simp only [shape, within, List.mem_cons, List.not_mem_nil, Bool.or_eq_true, Bool.and_eq_true,
    decide_eq_true_eq, or_false]
  -- None of the opcodes that have operands lies in one of the ranges.
  rw [if_neg (by omega), if_neg (by omega), if_neg (by omega), if_neg (by omega), if_neg (by omega),
    if_neg (by omega), if_neg (by omega), if_neg (by omega)]

/-- Where the number of operand bytes is fixed, it does not depend on what follows. -/
theorem operandCount_fixed {opcode : UInt8} {count : Nat} (fixed : shape opcode = .fixed count)
    (offset : Nat) (following : List UInt8) :
    operandCount offset opcode following = .ok count := by
  simp only [operandCount, fixed]

/-- The word behind a front of known length. -/
theorem signedWord?_drop {front : List UInt8} {skipped : Nat} (length : front.length = skipped)
    (word : UInt32) (rest : List UInt8) :
    signedWord? ((front ++ (bytes32 word ++ rest)).drop skipped) = some word.toInt32.toInt := by
  rw [List.drop_left' length]
  simp only [signedWord?, bytes32, List.cons_append, List.nil_append, join32_bytes]

end Instruction

namespace Operation

open Instruction

/-- The words of a switch start at the next multiple of four after its opcode. -/
theorem length_aligning (offset : Nat) : (aligning offset).length = padding offset := by
  rw [aligning, List.length_replicate, padding]
  omega

/-- The operands of a table switch are counted from its bounds, padding included. -/
theorem operandCount_tableSwitch (table : TableSwitch) (offset : Nat) (rest : List UInt8) :
    operandCount offset 0xaa ((tableSwitch table).operands offset ++ rest) =
      .ok ((tableSwitch table).operands offset).length := by
  have front : (aligning offset ++ bytes32 table.fallback).length = padding offset + 4 := by
    simp [length_aligning]
  have front' : (aligning offset ++ bytes32 table.fallback ++ bytes32 table.low.toUInt32).length =
      padding offset + 8 := by
    simp [length_aligning]
  have low := signedWord?_drop front table.low.toUInt32
    (bytes32 table.high.toUInt32 ++ (table.targets.flatMap bytes32 ++ rest))
  have high := signedWord?_drop front' table.high.toUInt32
    (table.targets.flatMap bytes32 ++ rest)
  simp only [List.append_assoc, Int32.toInt32_toUInt32] at low high
  have nonempty : ¬ table.high.toInt - table.low.toInt + 1 < 0 := by
    have := table.ordered
    omega
  have entries : (table.high.toInt - table.low.toInt + 1).toNat = table.targets.length := by
    have := table.full
    omega
  have isTable : shape 0xaa = .tableSwitch := rfl
  simp only [operandCount, isTable, operands, List.append_assoc, low, high, if_neg nonempty,
    entries, List.length_append, length_aligning, length_bytes32,
    length_flatMap_of_width length_bytes32]
  congr 1
  omega

/-- The operands of a lookup switch are counted from its number of pairs, padding included. -/
theorem operandCount_lookupSwitch (table : LookupSwitch) (offset : Nat) (rest : List UInt8) :
    operandCount offset 0xab ((lookupSwitch table).operands offset ++ rest) =
      .ok ((lookupSwitch table).operands offset).length := by
  have front : (aligning offset ++ bytes32 table.fallback).length = padding offset + 4 := by
    simp [length_aligning]
  have pairs := signedWord?_drop front (.ofNat table.pairs.length)
    ((table.pairs.flatMap fun pair => bytes32 pair.1 ++ bytes32 pair.2) ++ rest)
  have length := length_flatMap_of_width
    (fun pair : UInt32 × UInt32 => (by simp : (bytes32 pair.1 ++ bytes32 pair.2).length = 8))
    table.pairs
  simp only [List.append_assoc, toInt_ofNat table.countable] at pairs
  have isLookup : shape 0xab = .lookupSwitch := rfl
  have nonnegative : ¬ (table.pairs.length : Int) < 0 := by omega
  simp only [operandCount, isLookup, operands, List.append_assoc, pairs, if_neg nonnegative,
    Int.toNat_natCast, List.length_append, length_aligning, length_bytes32, length]
  congr 1
  omega

/-- Every instruction has as many operand bytes as its opcode takes where it stands, whatever
follows. -/
theorem operandCount_opcode (operation : Operation) (offset : Nat) (rest : List UInt8) :
    operandCount offset operation.opcode (operation.operands offset ++ rest) =
      .ok (operation.operands offset).length := by
  cases operation with
  | plain opcode listed => exact operandCount_fixed (shape_plain listed) _ _
  | load type slot => cases type <;> rfl
  | store type slot => cases type <;> rfl
  | jump condition distance => cases condition <;> rfl
  | jumpFar subroutine distance => cases subroutine <;> rfl
  | tableSwitch table => exact operandCount_tableSwitch table offset rest
  | lookupSwitch table => exact operandCount_lookupSwitch table offset rest
  | field use index member => cases use <;> rfl
  | call kind index member => cases kind <;> rfl
  | useType use index name => cases use <;> rfl
  | wideLoad type slot => cases type <;> rfl
  | wideStore type slot => cases type <;> rfl
  | _ => rfl

end Operation

/-- A listing of assembled code gives back the instructions, each where it was placed. -/
theorem Listing.ofCode_assemble (program : List Operation) (offset : Nat) :
    Listing.ofCode offset (Operation.assemble offset program) =
      { instructions := (Operation.place offset program).map fun placed =>
          placed.2.placedAt placed.1
        fault := none } := by
  -- The offset is general, since the rest of a program starts behind its first instruction.
  induction program generalizing offset with
  | nil => rw [Operation.assemble, Operation.place, List.flatMap_nil, ofCode]; rfl
  | cons operation rest inductionHypothesis =>
    have counted := operation.operandCount_opcode offset
      (Operation.assemble (offset + (operation.placedAt offset).bytes.length) rest)
    have code : Operation.assemble offset (operation :: rest) =
        operation.opcode :: (operation.operands offset ++
          Operation.assemble (offset + (operation.placedAt offset).bytes.length) rest) := rfl
    have next : offset + 1 + (operation.operands offset).length =
        offset + (operation.placedAt offset).bytes.length := by
      simp only [Operation.placedAt, Instruction.bytes, List.length_cons]
      omega
    rw [code, ofCode]
    simp only [counted, List.take_left, Nat.lt_irrefl, if_false, List.drop_left, next,
      inductionHypothesis]
    rfl

/-- One instruction for each opcode with operands. -/
def Operation.representatives : List Operation :=
  let types := [LocalType.int, .long, .float, .double, .reference]
  let jumps := [Jump.ifEqual, .ifNotEqual, .ifLess, .ifNotLess, .ifGreater, .ifNotGreater,
    .ifIntEqual, .ifIntNotEqual, .ifIntLess, .ifIntNotLess, .ifIntGreater, .ifIntNotGreater,
    .ifSame, .ifNotSame, .always, .subroutine, .ifNull, .ifNotNull]
  let member : MemberRef := { owner := "", name := "", descriptor := "" }
  types.map (load · 0) ++ types.map (store · 0) ++ jumps.map (jump · 0) ++
    [FieldUse.getStatic, .putStatic, .getField, .putField].map (field · 0 member) ++
    [Call.virtual, .special, .static].map (call · 0 member) ++
    [TypeUse.create, .createArray, .cast, .test].map (useType · 0 "") ++
    [pushByte 0, pushShort 0, loadConstant 0 .other, loadConstantWide 0 .other, loadLongConstant 0,
      increment 0 0, jumpFar false 0, jumpFar true 0, ret 0,
      tableSwitch { fallback := 0, low := 0, high := 0, targets := [0], ordered := by decide,
                    full := by decide },
      lookupSwitch { fallback := 0, pairs := [], countable := by decide },
      callInterface 0 member 0 0, callDynamic 0 0, createPrimitives 0, createArrays 0 "" 0,
      wideRet 0]

/-- Every opcode of the instruction set is that of some instruction. -/
theorem Operation.exists_opcode_eq {opcode : UInt8} (defined : opcode ≤ 0xc9) :
    ∃ operation : Operation, operation.opcode = opcode := by
  have table : ∀ number : Fin 0xca, isPlain (.ofNat number) = true ∨
      UInt8.ofNat number ∈ representatives.map Operation.opcode := by
    decide +kernel
  have bound : opcode.toNat < 0xca := by
    have := UInt8.le_iff_toNat_le.mp defined
    simp only [UInt8.reduceToNat] at this
    omega
  have found := table ⟨opcode.toNat, bound⟩
  simp only [UInt8.ofNat_toNat] at found
  rcases found with listed | represented
  · exact ⟨plain opcode listed, rfl⟩
  · obtain ⟨operation, _, same⟩ := List.mem_map.mp represented
    exact ⟨operation, same⟩

end ClassAtlas.ClassFile
