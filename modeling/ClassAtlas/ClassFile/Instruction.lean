import ClassAtlas.ClassFile.Decoder

/-!
# Instructions

Code is a sequence of instructions, each an opcode with its operand bytes. How many
operands an opcode has is fixed, except for three: `wide` looks at the opcode it
widens, and the two switches have operands aligned to four bytes from the start of the
code, whose words tell how many entries follow. A listing cuts code into instructions
up to the end or up to the first offset where that is impossible.
-/

namespace ClassAtlas.ClassFile

/-- One instruction and where it starts. -/
structure Instruction where
  offset : Nat
  opcode : UInt8
  operands : List UInt8
  deriving DecidableEq, Repr

namespace Instruction

/-- The bytes of an instruction. -/
def bytes (instruction : Instruction) : List UInt8 :=
  instruction.opcode :: instruction.operands

/-- How an opcode determines its operands. -/
inductive Shape
  | fixed (count : Nat)
  | wide
  | tableSwitch
  | lookupSwitch
  | undefined
  deriving DecidableEq, Repr

/-- Whether a number lies in a closed range. -/
def within (low high number : Nat) : Bool := low ≤ number && number ≤ high

/-- The shape of an opcode's operands. -/
def shape (opcode : UInt8) : Shape :=
  let code := opcode.toNat
  if code = 0xc4 then .wide
  else if code = 0xaa then .tableSwitch
  else if code = 0xab then .lookupSwitch
  else if 0xca ≤ code then .undefined
  else if code ∈ [0x10, 0x12, 0xa9, 0xbc] || within 0x15 0x19 code || within 0x36 0x3a code then
    .fixed 1
  else if code ∈ [0x11, 0x13, 0x14, 0x84, 0xbb, 0xbd, 0xc0, 0xc1, 0xc6, 0xc7] ||
      within 0x99 0xa8 code || within 0xb2 0xb8 code then
    .fixed 2
  else if code = 0xc5 then .fixed 3
  else if code ∈ [0xb9, 0xba, 0xc8, 0xc9] then .fixed 4
  else .fixed 0

/-- The bytes between the opcode of a switch and the next multiple of four. -/
def padding (offset : Nat) : Nat := (4 - (offset + 1) % 4) % 4

/-- The signed word at the front of some bytes. -/
def signedWord? : List UInt8 → Option Int
  | first :: second :: third :: fourth :: _ =>
    some (Decoder.join32 first second third fourth).toInt32.toInt
  | _ => none

/-- The number of operand bytes of an opcode at an offset, given the bytes that follow
it. A table whose high end lies directly before its low end has no entry. -/
def operandCount (offset : Nat) (opcode : UInt8) (following : List UInt8) :
    Except CodeFault Nat :=
  match shape opcode with
  | .fixed count => .ok count
  | .wide =>
    match following with
    | [] => .error .truncated
    | widened :: _ => .ok (if widened = 0x84 then 5 else 3)
  | .tableSwitch =>
    match signedWord? (following.drop (padding offset + 4)),
        signedWord? (following.drop (padding offset + 8)) with
    | some low, some high =>
      if high - low + 1 < 0 then .error .emptyTable
      else .ok (padding offset + 12 + 4 * (high - low + 1).toNat)
    | _, _ => .error .truncated
  | .lookupSwitch =>
    match signedWord? (following.drop (padding offset + 4)) with
    | some pairs =>
      if pairs < 0 then .error .negativePairs
      else .ok (padding offset + 8 + 8 * pairs.toNat)
    | none => .error .truncated
  | .undefined => .error .undefinedOpcode

/-- The length of the instruction at an offset, its opcode included. -/
def length (offset : Nat) (opcode : UInt8) (following : List UInt8) : Except CodeFault Nat :=
  (operandCount offset opcode following).map (· + 1)

end Instruction

/-- Instructions in order, and the fault that ended the listing early, if one did. -/
structure Listing where
  instructions : List Instruction
  fault : Option Fault

/-- Cut code into instructions, the first of which starts at `offset`. -/
def Listing.ofCode (offset : Nat) (code : List UInt8) : Listing :=
  match code with
  | [] => { instructions := [], fault := none }
  | opcode :: following =>
    match Instruction.operandCount offset opcode following with
    | .error reason => { instructions := [], fault := some (.badCode offset reason) }
    | .ok count =>
      let operands := following.take count
      if operands.length < count then
        { instructions := [], fault := some (.badCode offset .runsPastEnd) }
      else
        let later := ofCode (offset + 1 + count) (following.drop count)
        { later with instructions := { offset, opcode, operands } :: later.instructions }
termination_by code.length

end ClassAtlas.ClassFile
