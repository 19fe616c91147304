/-!
# Modifiers

Modifiers of classes and members are set by bits of their flags. The same bit can mean
different modifiers on a class, a field and a method. Modifiers have an order of their
own, in which they are listed and numbered.
-/

namespace ClassAtlas

/-- A modifier, in the order of listing. -/
inductive Modifier
  | publicAccess
  | privateAccess
  | protectedAccess
  | static
  | final
  | abstract
  | synchronized
  | volatile
  | transient
  | native
  | strict
  | synthetic
  | bridge
  | varargs
  deriving DecidableEq, Repr

namespace Modifier

/-- Every modifier once, in the order of listing. -/
def all : List Modifier :=
  [publicAccess, privateAccess, protectedAccess, static, final, abstract, synchronized,
    volatile, transient, native, strict, synthetic, bridge, varargs]

/-- The keyword of a modifier. -/
def keyword : Modifier → String
  | publicAccess => "public"
  | privateAccess => "private"
  | protectedAccess => "protected"
  | static => "static"
  | final => "final"
  | abstract => "abstract"
  | synchronized => "synchronized"
  | volatile => "volatile"
  | transient => "transient"
  | native => "native"
  | strict => "strict"
  | synthetic => "synthetic"
  | bridge => "bridge"
  | varargs => "varargs"

/-- The place of a modifier in the order of listing. -/
def rank : Modifier → Nat
  | publicAccess => 0
  | privateAccess => 1
  | protectedAccess => 2
  | static => 3
  | final => 4
  | abstract => 5
  | synchronized => 6
  | volatile => 7
  | transient => 8
  | native => 9
  | strict => 10
  | synthetic => 11
  | bridge => 12
  | varargs => 13

/-- The flag of a modifier that a class, a field and a method share. -/
def commonFlag? : Modifier → Option UInt16
  | publicAccess => some 0x0001
  | privateAccess => some 0x0002
  | protectedAccess => some 0x0004
  | static => some 0x0008
  | final => some 0x0010
  | abstract => some 0x0400
  | synthetic => some 0x1000
  | _ => none

/-- The flag of a modifier on a class. -/
def classFlag? (modifier : Modifier) : Option UInt16 := modifier.commonFlag?

/-- The flag of a modifier on a field. -/
def fieldFlag? : Modifier → Option UInt16
  | volatile => some 0x0040
  | transient => some 0x0080
  | modifier => modifier.commonFlag?

/-- The flag of a modifier on a method or constructor. -/
def methodFlag? : Modifier → Option UInt16
  | synchronized => some 0x0020
  | bridge => some 0x0040
  | varargs => some 0x0080
  | native => some 0x0100
  | strict => some 0x0800
  | modifier => modifier.commonFlag?

/-- Whether a flag is set. -/
def isSet (flags : UInt16) : Option UInt16 → Bool
  | some flag => flags &&& flag != 0
  | none => false

/-- The modifiers of a class. -/
def ofClassFlags (flags : UInt16) : List Modifier :=
  all.filter fun modifier => isSet flags modifier.classFlag?

/-- The modifiers of a field. -/
def ofFieldFlags (flags : UInt16) : List Modifier :=
  all.filter fun modifier => isSet flags modifier.fieldFlag?

/-- The modifiers of a method or constructor. -/
def ofMethodFlags (flags : UInt16) : List Modifier :=
  all.filter fun modifier => isSet flags modifier.methodFlag?

/-- The modifiers as a number, one bit for each rank. -/
def toBits (modifiers : List Modifier) : Nat :=
  modifiers.foldl (fun bits modifier => bits + Nat.pow 2 modifier.rank) 0

end Modifier

end ClassAtlas
