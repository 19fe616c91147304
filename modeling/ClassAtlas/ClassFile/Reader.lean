import ClassAtlas.ClassFile.AnnotationTable
import ClassAtlas.ClassFile.Code

/-!
# Reading class files

A class file is read from front to back: versions, constant pool, the class and its
supertypes, fields, methods and attributes, after which nothing may follow. Attributes
with unknown names, or in places where they mean nothing, are passed over.
-/

namespace ClassAtlas

open ClassFile

/-- What carries an attribute. -/
inductive ClassFile.Carrier
  | classBody (name : String)
  | field
  | method
  deriving DecidableEq, Repr

/-- What the attributes of one carrier say. -/
structure ClassFile.AttributeSummary where
  annotations : List AnnotationRecord := []
  code : Option CodeSummary := none
  throws : List String := []
  sourceFile : Option String := none
  nesting : Nesting := {}

/-- One line of a table of inner classes, as numbers of the constant pool. -/
structure ClassFile.InnerClass where
  inner : UInt16
  outer : UInt16
  name : UInt16
  flags : UInt16
  deriving DecidableEq, Repr

/-- Four numbers in order. -/
def ClassFile.InnerClass.decode : Decoder InnerClass := do
  let inner ← Decoder.u2
  let outer ← Decoder.u2
  let name ← Decoder.u2
  let flags ← Decoder.u2
  return { inner, outer, name, flags }

/-- Take in a line of a table of inner classes. Lines about other classes than `this`
only have to name a class. -/
def Nesting.withInnerClass (pool : ConstantPool) (this : String) (nesting : Nesting)
    (line : InnerClass) : Except Fault Nesting := do
  if (← pool.dottedClassName line.inner) ≠ this then return nesting
  else
    let enclosingClass ←
      if line.outer = 0 then pure nesting.enclosingClass
      else some <$> pool.dottedClassName line.outer
    let innerName ←
      if line.name = 0 then pure nesting.innerName else some <$> pool.text line.name
    return { nesting with enclosingClass, innerName, innerFlags := some line.flags }

/-- Read a given number of lines of a table of inner classes, taking in each before
the next is read. -/
def Nesting.readInnerClasses (pool : ConstantPool) (this : String) :
    Nat → Nesting → Decoder Nesting
  | 0, nesting => pure nesting
  | count + 1, nesting => do
    let line ← InnerClass.decode
    let nesting ← Nesting.withInnerClass pool this nesting line
    readInnerClasses pool this count nesting

/-- A table of inner classes. -/
def Nesting.innerClasses (pool : ConstantPool) (this : String) (nesting : Nesting) :
    Decoder Nesting := do
  let count ← Decoder.u2
  Nesting.readInnerClasses pool this count.toNat nesting

/-- The class, and possibly the method, that a local class is declared in. An enclosing
class known from the table of inner classes is kept. -/
def Nesting.enclosing (pool : ConstantPool) (nesting : Nesting) : Decoder Nesting := do
  let enclosing ← pool.dottedClassName (← Decoder.u2)
  let index ← Decoder.u2
  let method ← if index = 0 then pure none else some <$> pool.nameAndType index
  return { nesting with
    enclosingClass := nesting.enclosingClass.or (some enclosing)
    isLocal := true
    enclosingMethod := method }

/-- Take in one attribute of a carrier. -/
def ClassFile.AttributeSummary.absorb (pool : ConstantPool) (carrier : Carrier)
    (summary : AttributeSummary) (block : Attribute) : Except Fault AttributeSummary := do
  match block.name, carrier with
  | "RuntimeVisibleAnnotations", _ | "RuntimeInvisibleAnnotations", _ =>
    let annotations ← Decoder.whole (AnnotationTable.decode pool) block.content
    return { summary with annotations := summary.annotations ++ annotations }
  | "Code", .method =>
    return { summary with code := some (← CodeSummary.ofContent pool block.content) }
  | "Exceptions", .method =>
    let throws ← Decoder.whole
      (Decoder.counted do pool.dottedClassName (← Decoder.u2)) block.content
    return { summary with throws := summary.throws ++ throws }
  | "SourceFile", .classBody _ =>
    let sourceFile ← Decoder.whole (do pool.text (← Decoder.u2)) block.content
    return { summary with sourceFile := some sourceFile }
  | "InnerClasses", .classBody this =>
    let nesting ← Decoder.whole (summary.nesting.innerClasses pool this) block.content
    return { summary with nesting }
  | "EnclosingMethod", .classBody _ =>
    let nesting ← Decoder.whole (summary.nesting.enclosing pool) block.content
    return { summary with nesting }
  | _, _ => return summary

/-- Read a given number of attributes, taking in each before the next is read. -/
def ClassFile.AttributeSummary.read (pool : ConstantPool) (carrier : Carrier) :
    Nat → AttributeSummary → Decoder AttributeSummary
  | 0, summary => pure summary
  | count + 1, summary => do
    let block ← Attribute.decode pool
    let summary ← summary.absorb pool carrier block
    read pool carrier count summary

/-- The attributes of a carrier. -/
def ClassFile.AttributeSummary.decode (pool : ConstantPool) (carrier : Carrier) :
    Decoder AttributeSummary := do
  let count ← Decoder.u2
  AttributeSummary.read pool carrier count.toNat {}

/-- A declared field. -/
def FieldRecord.decode (pool : ConstantPool) : Decoder FieldRecord := do
  let flags ← Decoder.u2
  let name ← pool.text (← Decoder.u2)
  let descriptor ← pool.text (← Decoder.u2)
  let summary ← AttributeSummary.decode pool .field
  return { name, descriptor, flags, annotations := summary.annotations }

/-- A declared method. -/
def MethodRecord.decode (pool : ConstantPool) : Decoder MethodRecord := do
  let flags ← Decoder.u2
  let name ← pool.text (← Decoder.u2)
  let descriptor ← pool.text (← Decoder.u2)
  let summary ← AttributeSummary.decode pool .method
  let code := summary.code.getD {}
  return {
    name, descriptor, flags
    annotations := summary.annotations
    throws := summary.throws
    accesses := code.accesses
    typeMentions := code.typeMentions
    firstLine := code.firstLine }

/-- The number every class file starts with. -/
def ClassFile.magic : UInt32 := 0xCAFEBABE

/-- The oldest and the newest supported major version. -/
def ClassFile.supportedVersions : UInt16 × UInt16 := (45, 70)

/-- A class record, without regard to what follows it. -/
def ClassRecord.decode : Decoder ClassRecord := do
  let found ← Decoder.u4
  if found ≠ magic then throw (.badMagic found)
  let minor ← Decoder.u2
  let major ← Decoder.u2
  if major < supportedVersions.1 || supportedVersions.2 < major then
    throw (.unsupportedVersion major)
  let pool ← ConstantPool.decode
  let flags ← Decoder.u2
  let name ← pool.dottedClassName (← Decoder.u2)
  let superIndex ← Decoder.u2
  let superclass ←
    if superIndex = 0 then pure none else some <$> pool.dottedClassName superIndex
  let interfaces ← Decoder.counted do pool.dottedClassName (← Decoder.u2)
  let fields ← Decoder.counted (FieldRecord.decode pool)
  let methods ← Decoder.counted (MethodRecord.decode pool)
  let summary ← AttributeSummary.decode pool (.classBody name)
  return {
    name, flags, major, minor, superclass, interfaces, fields, methods
    annotations := summary.annotations
    sourceFile := summary.sourceFile
    nesting := summary.nesting }

/-- Read the class record that some bytes hold, all of them. -/
def ClassFile.read (bytes : List UInt8) : Except Fault ClassRecord :=
  Decoder.whole ClassRecord.decode bytes

end ClassAtlas
