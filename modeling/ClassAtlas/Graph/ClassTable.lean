import ClassAtlas.Graph.Node
import Std.Data.TreeMap

/-!
# Numbering classes

A class table numbers types in the order in which they are first mentioned. Types are told
apart by their names, and primitive types have no number. An array is numbered after its
component and after the root class, from which every array descends.
-/

namespace ClassAtlas

/-- Types by number, and numbers by name. -/
structure ClassTable where
  types : Array TypeName := #[]
  index : Std.TreeMap String ClassId compare := ∅

namespace ClassTable

/-- Number a type if its name is new. -/
def add (table : ClassTable) (type : TypeName) : ClassTable :=
  if table.index.contains type.name then table
  else
    { types := table.types.push type
      index := table.index.insert type.name table.types.size }

/-- Number a type and what has to come before it. -/
def intern (table : ClassTable) : TypeName → ClassTable
  | .primitive _ => table
  | .object name => table.add (.object name)
  | .array component => ((table.intern component).add .rootClass).add (.array component)

/-- Number types in order. -/
def internAll (table : ClassTable) (types : List TypeName) : ClassTable :=
  types.foldl intern table

/-- The number of a type; primitive types have none. -/
def id? (table : ClassTable) (type : TypeName) : Option ClassId :=
  if type.isPrimitive then none else table.index[type.name]?

/-- The number of a type that is known to be in the table. -/
def id (table : ClassTable) (type : TypeName) : ClassId := (table.id? type).getD 0

/-- A type as it stands in a signature. -/
def ref (table : ClassTable) : TypeName → TypeRef
  | .primitive kind => .primitive kind
  | type => .node (table.id type)

/-- The numbers of the types that have one. -/
def ids (table : ClassTable) (types : List TypeName) : List ClassId :=
  types.filterMap table.id?

/-- Annotations with numbers in place of types. -/
def annotations (table : ClassTable) (typed : List (AnnotationUse TypeName TypeName)) :
    NodeAnnotations :=
  typed.map (AnnotationUse.mapTypes (m := Id) table.id table.ref)

/-- The node of a numbered type before anything but its name is known. -/
def stub (table : ClassTable) (number : ClassId) (type : TypeName) : ClassNode :=
  { id := number, type, simpleName := type.simple
    superclass := if type.isArray then table.id? .rootClass else none
    component := type.component?.bind table.id? }

/-- The nodes of all numbered types. -/
def stubs (table : ClassTable) : Array ClassNode :=
  table.types.mapIdx table.stub

end ClassTable

end ClassAtlas
