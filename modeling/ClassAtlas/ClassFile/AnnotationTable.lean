import ClassAtlas.ClassFile.ConstantPool
import ClassAtlas.ClassFile.Record

/-!
# Annotations in class files

An annotation table lists annotations, whose element values are told apart by a tag
and may hold annotations and arrays of values again. Values are read with a bound on
their nesting. Each level of nesting takes at least one byte, so the number of bytes
is bound enough: a reader at the bound has no bytes left either.
-/

namespace ClassAtlas.ClassFile.AnnotationTable

/-- The value of a value tag. -/
abbrev Value := ElementValue String String

/-- The value of a constant, which has to be of an expected kind. -/
def constantOf {α : Type} (expected : ConstantKind) (value? : Constant → Option α)
    (pool : ConstantPool) (index : UInt16) : Except Fault α := do
  let entry ← pool.get index
  match value? entry with
  | some value => return value
  | none => throw (ConstantPool.mismatch index expected entry)

/-- The integer constant of a number. -/
def integerConstant : ConstantPool → UInt16 → Except Fault Int32 :=
  constantOf .integer fun
    | .integer value => some value
    | _ => none

/-- The long constant of a number. -/
def longConstant : ConstantPool → UInt16 → Except Fault Int64 :=
  constantOf .long fun
    | .long value => some value
    | _ => none

/-- The bits of the float constant of a number. -/
def floatConstant : ConstantPool → UInt16 → Except Fault UInt32 :=
  constantOf .float fun
    | .float bits => some bits
    | _ => none

/-- The bits of the double constant of a number. -/
def doubleConstant : ConstantPool → UInt16 → Except Fault UInt64 :=
  constantOf .double fun
    | .double bits => some bits
    | _ => none

/-- The character with a given number, if there is one. -/
def character (value : Int32) : Except Fault Char :=
  if valid : value.toUInt32.isValidChar then .ok ⟨value.toUInt32, valid⟩
  else .error (.malformed .annotations)

/-- An annotation whose values are read by `value`. -/
def annotationUse (pool : ConstantPool) (value : Decoder Value) : Decoder AnnotationRecord := do
  let type ← pool.text (← Decoder.u2)
  let elements ← Decoder.counted do
    let name ← pool.text (← Decoder.u2)
    return Element.mk name (← value)
  return .mk type elements

/-- A value nested at most to a given depth. -/
def elementValue (pool : ConstantPool) : Nat → Decoder Value
  | 0 => throw .unexpectedEnd
  | depth + 1 => do
    let tag ← Decoder.u1
    match Char.ofNat tag.toNat with
    | 'B' => return .literal (.byte (← integerConstant pool (← Decoder.u2)).toInt8)
    | 'C' => return .literal (.char (← character (← integerConstant pool (← Decoder.u2))))
    | 'S' => return .literal (.short (← integerConstant pool (← Decoder.u2)).toInt16)
    | 'Z' => return .literal (.boolean ((← integerConstant pool (← Decoder.u2)) != 0))
    | 'I' => return .literal (.int (← integerConstant pool (← Decoder.u2)))
    | 'J' => return .literal (.long (← longConstant pool (← Decoder.u2)))
    | 'F' => return .literal (.float (← floatConstant pool (← Decoder.u2)))
    | 'D' => return .literal (.double (← doubleConstant pool (← Decoder.u2)))
    | 's' => return .literal (.string (← pool.stringConstant (← Decoder.u2)))
    | 'e' =>
      let type ← pool.text (← Decoder.u2)
      let constant ← pool.text (← Decoder.u2)
      return .enumConstant type constant
    | 'c' => return .classLiteral (← pool.text (← Decoder.u2))
    | '@' => return .nested (← annotationUse pool (elementValue pool depth))
    | '[' => return .array (← Decoder.counted (elementValue pool depth))
    | _ => throw (.malformed .annotations)

/-- A table of annotations. -/
def decode (pool : ConstantPool) : Decoder (List AnnotationRecord) := do
  let bytes ← get
  Decoder.counted (annotationUse pool (elementValue pool bytes.length))

end ClassAtlas.ClassFile.AnnotationTable
