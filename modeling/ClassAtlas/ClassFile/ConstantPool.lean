import ClassAtlas.ClassFile.Decoder
import ClassAtlas.ClassFile.ModifiedUtf8
import ClassAtlas.Name

/-!
# The constant pool

Names, numbers and symbolic references of a class file stand in one table, numbered
from one. A 64-bit number takes two numbers, of which the second cannot be used.
Floating point constants are kept as bit patterns. Entries that no part of a class
record needs are kept by kind only.
-/

namespace ClassAtlas.ClassFile

/-- An entry of the constant pool. -/
inductive Constant
  | unusable
  | text (content : String)
  | integer (value : Int32)
  | float (bits : UInt32)
  | long (value : Int64)
  | double (bits : UInt64)
  | classRef (name : UInt16)
  | string (content : UInt16)
  | fieldRef (owner nameAndType : UInt16)
  | methodRef (owner nameAndType : UInt16)
  | interfaceMethodRef (owner nameAndType : UInt16)
  | nameAndType (name descriptor : UInt16)
  | methodHandle
  | methodType
  | dynamic
  | invokeDynamic
  | module
  | package
  deriving DecidableEq, Repr

namespace Constant

/-- The kind of an entry. -/
def kind : Constant → ConstantKind
  | unusable => .unusable
  | text _ => .text
  | integer _ => .integer
  | float _ => .float
  | long _ => .long
  | double _ => .double
  | classRef _ => .classRef
  | string _ => .string
  | fieldRef .. => .fieldRef
  | methodRef .. => .methodRef
  | interfaceMethodRef .. => .interfaceMethodRef
  | nameAndType .. => .nameAndType
  | methodHandle => .methodHandle
  | methodType => .methodType
  | dynamic => .dynamic
  | invokeDynamic => .invokeDynamic
  | module => .module
  | package => .package

/-- Whether the entry takes two numbers of the pool. -/
def isWide : Constant → Bool
  | long _ | double _ => true
  | _ => false

/-- The entry that follows a tag. -/
def ofTag (tag : UInt8) : Decoder Constant := do
  match tag with
  | 1 =>
    let length ← Decoder.u2
    let bytes ← Decoder.take length.toNat
    match ModifiedUtf8.decode bytes with
    | some content => return text content
    | none => throw .badText
  | 3 => return integer (← Decoder.u4).toInt32
  | 4 => return float (← Decoder.u4)
  | 5 => return long (← Decoder.u8).toInt64
  | 6 => return double (← Decoder.u8)
  | 7 => return classRef (← Decoder.u2)
  | 8 => return string (← Decoder.u2)
  | 9 => return fieldRef (← Decoder.u2) (← Decoder.u2)
  | 10 => return methodRef (← Decoder.u2) (← Decoder.u2)
  | 11 => return interfaceMethodRef (← Decoder.u2) (← Decoder.u2)
  | 12 => return nameAndType (← Decoder.u2) (← Decoder.u2)
  | 15 =>
    Decoder.skip 3
    return methodHandle
  | 16 =>
    Decoder.skip 2
    return methodType
  | 17 =>
    Decoder.skip 4
    return dynamic
  | 18 =>
    Decoder.skip 4
    return invokeDynamic
  | 19 =>
    Decoder.skip 2
    return module
  | 20 =>
    Decoder.skip 2
    return package
  | other => throw (.badTag other)

/-- One entry: a tag and what it announces. -/
def decode : Decoder Constant := do
  ofTag (← Decoder.u1)

end Constant

/-- The entries by number; number zero is never used. -/
structure ConstantPool where
  entries : Array Constant
  deriving Repr

/-- A symbolic reference to a field or method, its owner spelled with slashes. -/
structure MemberRef where
  owner : String
  name : String
  descriptor : String
  deriving DecidableEq, Repr

namespace ConstantPool

/-- Entries for a given count of numbers. The last number cannot be the first of a
64-bit entry. -/
def slots : Nat → Decoder (List Constant)
  | 0 => pure []
  | 1 => do
    let entry ← Constant.decode
    if entry.isWide then throw (.malformed .constantPool) else return [entry]
  | count + 2 => do
    let entry ← Constant.decode
    if entry.isWide then
      let others ← slots count
      return entry :: .unusable :: others
    else
      let others ← slots (count + 1)
      return entry :: others

/-- The pool with its count, which counts number zero too. -/
def decode : Decoder ConstantPool := do
  let count ← Decoder.u2
  let entries ← slots (count.toNat - 1)
  return { entries := (.unusable :: entries).toArray }

/-- The entry of a number. -/
def get (pool : ConstantPool) (index : UInt16) : Except Fault Constant :=
  match pool.entries[index.toNat]? with
  | some .unusable | none => .error (.badIndex index)
  | some entry => .ok entry

/-- The fault of an entry that is not of the expected kind. -/
def mismatch (index : UInt16) (expected : ConstantKind) (found : Constant) : Fault :=
  .kindMismatch index expected found.kind

/-- The text of a text entry. -/
def text (pool : ConstantPool) (index : UInt16) : Except Fault String := do
  match ← pool.get index with
  | .text content => return content
  | other => throw (mismatch index .text other)

/-- The name of a class entry, with slashes, or the descriptor of an array. -/
def className (pool : ConstantPool) (index : UInt16) : Except Fault String := do
  match ← pool.get index with
  | .classRef name => pool.text name
  | other => throw (mismatch index .classRef other)

/-- The dotted name of a class entry. -/
def dottedClassName (pool : ConstantPool) (index : UInt16) : Except Fault String :=
  (pool.className index).map Name.dotted

/-- Name and descriptor of a pair of them. -/
def nameAndType (pool : ConstantPool) (index : UInt16) : Except Fault (String × String) := do
  match ← pool.get index with
  | .nameAndType name descriptor => return (← pool.text name, ← pool.text descriptor)
  | other => throw (mismatch index .nameAndType other)

/-- The member that an owner and a pair of name and descriptor refer to. -/
def memberRef (pool : ConstantPool) (owner pair : UInt16) : Except Fault MemberRef := do
  let owner ← pool.className owner
  let (name, descriptor) ← pool.nameAndType pair
  return { owner, name, descriptor }

/-- The field that a field reference names. -/
def fieldRef (pool : ConstantPool) (index : UInt16) : Except Fault MemberRef := do
  match ← pool.get index with
  | .fieldRef owner pair => pool.memberRef owner pair
  | other => throw (mismatch index .fieldRef other)

/-- The method that a method reference names; those of interfaces count as well. -/
def methodRef (pool : ConstantPool) (index : UInt16) : Except Fault MemberRef := do
  match ← pool.get index with
  | .methodRef owner pair | .interfaceMethodRef owner pair => pool.memberRef owner pair
  | other => throw (mismatch index .methodRef other)

/-- The text of a string constant, given as such or as a text entry. -/
def stringConstant (pool : ConstantPool) (index : UInt16) : Except Fault String := do
  match ← pool.get index with
  | .text content => return content
  | .string content => pool.text content
  | other => throw (mismatch index .string other)

end ConstantPool

end ClassAtlas.ClassFile
