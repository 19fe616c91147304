import ClassAtlas.Graph.ClassTable
import ClassAtlas.Graph.RecordTypes
import ClassAtlas.Pool

/-!
# Declared classes and members

Each typed record fills the node of its class and adds a member for every field and method
it declares, numbered in order of declaration. Bodies are not looked at yet.
-/

namespace ClassAtlas

/-- A record together with the types it mentions. -/
structure TypedRecord where
  entry : PoolRecord
  types : RecordTypes

namespace TypedRecord

/-- The fields with their types. -/
def fields (typed : TypedRecord) : List (FieldRecord × FieldTypes) :=
  typed.entry.record.fields.zip typed.types.fields

/-- The methods with their types. -/
def methods (typed : TypedRecord) : List (MethodRecord × MethodTypes) :=
  typed.entry.record.methods.zip typed.types.methods

end TypedRecord

/-- The member of a field. -/
def Member.ofField (table : ClassTable) (owner : ClassId) (id : MemberId)
    (field : FieldRecord) (types : FieldTypes) : Member :=
  { id, owner, kind := .field, name := field.name, descriptor := field.descriptor
    modifiers := Modifier.ofFieldFlags field.flags
    valueType := table.ref types.value
    annotations := table.annotations types.annotations }

/-- The member of a method, constructor or static initializer. -/
def Member.ofMethod (table : ClassTable) (owner : ClassId) (id : MemberId)
    (method : MethodRecord) (types : MethodTypes) : Member :=
  { id, owner, kind := .ofMethodName method.name, name := method.name
    descriptor := method.descriptor
    modifiers := Modifier.ofMethodFlags method.flags
    valueType := table.ref types.descriptor.returnType
    parameters := types.descriptor.parameters.map table.ref
    throws := table.ids types.throws
    annotations := table.annotations types.annotations
    firstLine := method.firstLine }

/-- The declared members of a class, numbered from a first number: fields, then methods. -/
structure Declarations where
  owner : ClassId
  fields : List Member
  methods : List Member

namespace Declarations

/-- All declared members in order of their numbers. -/
def members (declarations : Declarations) : List Member :=
  declarations.fields ++ declarations.methods

/-- The numbers of the methods of a kind. -/
def ofKind (declarations : Declarations) (kind : MemberKind) : List MemberId :=
  (declarations.methods.filter fun member => member.kind = kind).map Member.id

/-- The declarations of a record. -/
def ofTyped (table : ClassTable) (first : MemberId) (typed : TypedRecord) : Declarations :=
  let owner := table.id typed.types.this
  { owner
    fields := (typed.fields.zipIdx first).map fun ((field, types), id) =>
      .ofField table owner id field types
    methods := (typed.methods.zipIdx (first + typed.fields.length)).map
      fun ((method, types), id) => .ofMethod table owner id method types }

end Declarations

/-- Fill the node of a class from its record. A class that declares several static
initializers keeps the last. The simple name and the modifiers of a nested class come
from the table of inner classes. -/
def ClassNode.declare (table : ClassTable) (typed : TypedRecord) (declarations : Declarations)
    (node : ClassNode) : ClassNode :=
  let record := typed.entry.record
  { node with
    simpleName :=
      if record.nesting.isNested then record.nesting.innerName.getD ""
      else typed.types.this.simple
    kind := .ofFlags record.flags
    modifiers := Modifier.ofClassFlags (record.nesting.innerFlags.getD record.flags)
    resolution := .resolved typed.entry.source typed.entry.pulledIn
    superclass := typed.types.superclass.bind table.id?
    interfaces := table.ids typed.types.interfaces
    enclosingClass := typed.types.enclosing.bind table.id?
    annotations := table.annotations typed.types.annotations
    fields := declarations.fields.map Member.id
    methods := declarations.ofKind .method
    constructors := declarations.ofKind .constructor
    staticInitializer := (declarations.ofKind .staticInitializer).getLast? }

/-- The declarations of records in order, numbered one after the other. -/
def declareAll (table : ClassTable) : MemberId → List TypedRecord →
    List (TypedRecord × Declarations)
  | _, [] => []
  | first, typed :: rest =>
    let declarations := Declarations.ofTyped table first typed
    (typed, declarations) :: declareAll table (first + declarations.members.length) rest

end ClassAtlas
