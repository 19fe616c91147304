/-!
# Faults of class files

A class file that cannot be read has exactly one fault, the first that a reader
meets on its way from the front to the back. Each fault carries what its wording
needs.
-/

namespace ClassAtlas.ClassFile

/-- The kinds of constant pool entries that a mismatch can name. -/
inductive ConstantKind
  | unusable
  | text
  | integer
  | float
  | long
  | double
  | classRef
  | string
  | fieldRef
  | methodRef
  | interfaceMethodRef
  | nameAndType
  | methodHandle
  | methodType
  | dynamic
  | invokeDynamic
  | module
  | package
  deriving DecidableEq, Repr

/-- The name by which a fault refers to a kind of entry. -/
def ConstantKind.label : ConstantKind → String
  | unusable => "Unusable"
  | text => "Utf8"
  | integer => "Integer"
  | float => "Float"
  | long => "Long"
  | double => "Double"
  | classRef => "Class"
  | string => "String"
  | fieldRef => "Fieldref"
  | methodRef => "Methodref"
  | interfaceMethodRef => "InterfaceMethodref"
  | nameAndType => "NameAndType"
  | methodHandle => "MethodHandle"
  | methodType => "MethodType"
  | dynamic => "Dynamic"
  | invokeDynamic => "InvokeDynamic"
  | module => "Module"
  | package => "Package"

/-- A part of the file whose layout contradicts itself. -/
inductive Part
  | constantPool
  | annotations
  deriving DecidableEq, Repr

/-- The name by which a fault refers to a part. -/
def Part.label : Part → String
  | constantPool => "constant pool"
  | annotations => "RuntimeVisibleAnnotations"

/-- Why an instruction cannot be decoded. -/
inductive CodeFault
  | runsPastEnd
  | truncated
  | emptyTable
  | negativePairs
  | undefinedOpcode
  deriving DecidableEq, Repr

/-- The wording of an instruction's fault. -/
def CodeFault.reason : CodeFault → String
  | runsPastEnd => "instruction runs past end of code"
  | truncated => "truncated instruction"
  | emptyTable => "tableswitch high < low"
  | negativePairs => "lookupswitch with negative pair count"
  | undefinedOpcode => "reserved or undefined opcode"

/-- Why a class file cannot be read. -/
inductive Fault
  | unexpectedEnd
  | badMagic (found : UInt32)
  | unsupportedVersion (major : UInt16)
  | badIndex (index : UInt16)
  | badTag (tag : UInt8)
  | kindMismatch (index : UInt16) (expected found : ConstantKind)
  | badText
  | malformed (part : Part)
  | badCode (offset : Nat) (reason : CodeFault)
  | trailingBytes (count : Nat)
  deriving DecidableEq, Repr

/-- A number in hexadecimal digits, padded with zeros to a width. -/
def hexPadded (width value : Nat) : String :=
  let digits := Nat.toDigits 16 value
  String.ofList (List.replicate (width - digits.length) '0' ++ digits)

/-- The wording of a fault. -/
def Fault.message : Fault → String
  | unexpectedEnd => "unexpected end of input"
  | badMagic found => "invalid class file magic: 0x" ++ hexPadded 8 found.toNat
  | unsupportedVersion major => s!"unsupported class file major version {major}"
  | badIndex index => s!"invalid constant pool index: {index}"
  | badTag tag => s!"invalid constant pool tag: {tag}"
  | kindMismatch index expected found =>
    s!"constant pool type mismatch at index {index}: expected " ++ expected.label ++
      ", found " ++ found.label
  | badText => "invalid modified UTF-8 constant"
  | malformed part => "malformed " ++ part.label ++ " attribute"
  | badCode offset reason => s!"invalid bytecode at offset {offset}: " ++ reason.reason
  | trailingBytes count => s!"{count} trailing bytes after class file"

end ClassAtlas.ClassFile
