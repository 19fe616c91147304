import ClassAtlas.Name
import ClassAtlas.Types.Primitive

/-!
# Types by name

A type of the virtual machine is a primitive type, a class known by its dotted
binary name, or an array of some component type. Its *binary name* is its identity:
`int`, `java.lang.Object`, `[Ljava.lang.Object;`, `[[I`. All names are computed from
the structure of the type, so a type cannot disagree with its name.
-/

namespace ClassAtlas

/-- A type: primitive, class or array. Class names are dotted. -/
inductive TypeName
  | primitive (kind : Primitive)
  | object (name : String)
  | array (component : TypeName)
  deriving DecidableEq, Repr

namespace TypeName

/-- The class from which every other class and every array descends. -/
def rootClass : TypeName := object "java.lang.Object"

/-- The descriptor with dotted names, as it stands inside an array's binary name. -/
def elementLetters : TypeName → List Char
  | primitive kind => [kind.letter]
  | object name => 'L' :: (name.toList ++ [';'])
  | array component => '[' :: component.elementLetters

/-- The binary name: `int`, `java.lang.Object`, `[Ljava.lang.Object;`. -/
def name : TypeName → String
  | primitive kind => kind.keyword
  | object name => name
  | array component => String.ofList ('[' :: component.elementLetters)

/-- The field descriptor: `I`, `Ljava/lang/Object;`, `[I`. -/
def descriptor (type : TypeName) : String :=
  String.ofList (Name.respell '.' '/' type.elementLetters)

/-- The source spelling: a pair of brackets for each dimension of an array. -/
def canonical : TypeName → String
  | primitive kind => kind.keyword
  | object name => name
  | array component => component.canonical ++ "[]"

/-- The simple name: `Object`, `int`, `Object[]`; empty for an anonymous class. -/
def simple : TypeName → String
  | primitive kind => kind.keyword
  | object name => Name.simple name
  | array component => component.simple ++ "[]"

/-- The package of a class; primitive types and arrays have none. -/
def package : TypeName → String
  | object name => Name.package name
  | _ => ""

/-- The component type of an array, one dimension down. -/
def component? : TypeName → Option TypeName
  | array component => some component
  | _ => none

/-- The component types of an array from the outermost to the innermost. -/
def components : TypeName → List TypeName
  | array component => component :: component.components
  | _ => []

/-- The innermost element type; a type that is no array is its own. -/
def base : TypeName → TypeName
  | array component => component.base
  | type => type

/-- The number of array dimensions. -/
def dimensions : TypeName → Nat
  | array component => component.dimensions + 1
  | _ => 0

/-- Whether the type is primitive. -/
def isPrimitive : TypeName → Bool
  | primitive _ => true
  | _ => false

/-- Whether the type is an array. -/
def isArray : TypeName → Bool
  | array _ => true
  | _ => false

/-- The slashed name of a class. -/
def internal? : TypeName → Option String
  | object name => some (Name.slashed name)
  | _ => none

/-- Wrap a type into a number of array dimensions. -/
def arrayOf (element : TypeName) : Nat → TypeName
  | 0 => element
  | count + 1 => array (element.arrayOf count)

/-- Two types count as the same when their binary names agree. -/
def sameName (left right : TypeName) : Bool := left.name = right.name

end TypeName

end ClassAtlas
