import ClassAtlas.ClassFile.ConstantPool
import ClassAtlas.ClassFile.Instruction
import ClassAtlas.ClassFile.LineTable
import ClassAtlas.ClassFile.Record

/-!
# What a method body mentions

The code of a method names members, through the field and invocation instructions, and
types, through creation, casts, tests, class literals and exception handlers. Each
mention carries the source line of its instruction.
-/

namespace ClassAtlas.ClassFile

/-- An attribute by name, its content not yet looked into. -/
structure Attribute where
  name : String
  content : List UInt8
  deriving DecidableEq, Repr

/-- A name, a length and that many bytes. -/
def Attribute.decode (pool : ConstantPool) : Decoder Attribute := do
  let name ← pool.text (← Decoder.u2)
  let length ← Decoder.u4
  let content ← Decoder.take length.toNat
  return { name, content }

/-- Where a handler starts and the type it catches. -/
structure Handler where
  offset : Nat
  caught : String
  deriving DecidableEq, Repr

/-- A handler; one that catches everything names no type. -/
def Handler.decode (pool : ConstantPool) : Decoder (Option Handler) := do
  Decoder.skip 4
  let offset ← Decoder.u2
  let caught ← Decoder.u2
  if caught = 0 then return none
  else return some { offset := offset.toNat, caught := ← pool.dottedClassName caught }

/-- An entry of a line table. -/
def LineEntry.decode : Decoder LineEntry := do
  let start ← Decoder.u2
  let line ← Decoder.u2
  return { start := start.toNat, line := line.toNat }

/-- The entries that an attribute of the code adds to the line table. -/
def LineEntry.ofAttribute (block : Attribute) : Except Fault (List LineEntry) :=
  if block.name = "LineNumberTable" then
    Decoder.whole (Decoder.counted LineEntry.decode) block.content
  else return []

/-- The parts of a code attribute. -/
structure CodeBody where
  code : List UInt8
  handlers : List Handler
  lines : LineTable

/-- The parts of a code attribute in order: stack sizes, code, handlers, attributes. -/
def CodeBody.decode (pool : ConstantPool) : Decoder CodeBody := do
  Decoder.skip 4
  let length ← Decoder.u4
  let code ← Decoder.take length.toNat
  let handlers ← Decoder.counted (Handler.decode pool)
  let entries ← Decoder.counted do
    let block ← Attribute.decode pool
    LineEntry.ofAttribute block
  return { code, handlers := handlers.filterMap id, lines := .ofEntries entries.flatten }

/-- What an instruction mentions. -/
inductive Mention
  | member (access : AccessRecord)
  | type (mention : TypeMention)
  deriving DecidableEq, Repr

/-- The member access of an instruction, if it is one. -/
def Mention.access? : Mention → Option AccessRecord
  | member access => some access
  | type _ => none

/-- The type mentioned by an instruction, if it is no member access. -/
def Mention.type? : Mention → Option TypeMention
  | member _ => none
  | type mention => some mention

/-- The pool number in the first two operand bytes. -/
def Instruction.index : Instruction → UInt16
  | { operands := high :: low :: _, .. } => Decoder.join16 high low
  | { operands := [low], .. } => Decoder.join16 0 low
  | { operands := [], .. } => 0

/-- How a member instruction uses the member. Only `invokespecial` calls constructors. -/
def accessKind (opcode : UInt8) (member : String) : AccessKind :=
  if opcode = 0xb2 || opcode = 0xb4 then .getField
  else if opcode = 0xb3 || opcode = 0xb5 then .setField
  else if opcode = 0xb7 && member = "<init>" then .constructorCall
  else .methodCall

/-- What an instruction mentions, with its source line. -/
def Instruction.mention (pool : ConstantPool) (lines : LineTable) (instruction : Instruction) :
    Except Fault (Option Mention) := do
  let opcode := instruction.opcode
  let index := instruction.index
  let line := lines.lineAt instruction.offset
  if 0xb2 ≤ opcode && opcode ≤ 0xb9 then
    let member ← if opcode ≤ 0xb5 then pool.fieldRef index else pool.methodRef index
    return some (.member
      { kind := accessKind opcode member.name, owner := Name.dotted member.owner,
        name := member.name, descriptor := member.descriptor, line })
  else if opcode ∈ [0xbb, 0xbd, 0xc0, 0xc1, 0xc5] then
    return some (.type { name := ← pool.dottedClassName index, line })
  else if opcode = 0x12 || opcode = 0x13 then
    match ← pool.get index with
    | .classRef _ => return some (.type { name := ← pool.dottedClassName index, line })
    | _ => return none
  else return none

/-- What a method body mentions: members in order of the code, types with those of the
handlers first, and the least source line. -/
structure CodeSummary where
  accesses : List AccessRecord := []
  typeMentions : List TypeMention := []
  firstLine : Option Nat := none

/-- The mentions of all instructions; code that cannot be cut into instructions to its
end is refused, but only after the instructions before that point were looked at. -/
def CodeBody.mentions (pool : ConstantPool) (body : CodeBody) : Except Fault (List Mention) := do
  let listing := Listing.ofCode 0 body.code
  let found ← listing.instructions.mapM (Instruction.mention pool body.lines)
  match listing.fault with
  | some fault => throw fault
  | none => return found.filterMap id

/-- The summary of a code attribute's content. -/
def CodeSummary.ofContent (pool : ConstantPool) (content : List UInt8) :
    Except Fault CodeSummary := do
  let body ← Decoder.whole (CodeBody.decode pool) content
  let mentions ← body.mentions pool
  let caught := body.handlers.map fun handler =>
    { name := handler.caught, line := body.lines.lineAt handler.offset : TypeMention }
  return {
    accesses := mentions.filterMap Mention.access?
    typeMentions := caught ++ mentions.filterMap Mention.type?
    firstLine := body.lines.firstLine }

end ClassAtlas.ClassFile
