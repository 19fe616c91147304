import ClassAtlas.ClassFile.Record
import ClassAtlas.Types.Descriptor

/-!
# The types a class record mentions

Before a record becomes part of a graph, every type name and descriptor in it is read. A
record that mentions something that is no type is refused as a whole, for the first such
text in order of appearance. The order of the mentions fixes the order in which classes
are numbered.
-/

namespace ClassAtlas

/-- An annotation whose types have been read. -/
abbrev TypedAnnotations := List (AnnotationUse TypeName TypeName)

/-- The types of a field. -/
structure FieldTypes where
  value : TypeName
  annotations : TypedAnnotations

/-- The types of a method and of what its body mentions. -/
structure MethodTypes where
  descriptor : MethodDescriptor
  throws : List TypeName
  accessOwners : List TypeName
  typeMentions : List TypeName
  annotations : TypedAnnotations

/-- The types of a class record. -/
structure RecordTypes where
  this : TypeName
  superclass : Option TypeName
  interfaces : List TypeName
  enclosing : Option TypeName
  annotations : TypedAnnotations
  fields : List FieldTypes
  methods : List MethodTypes

/-- Read a descriptor that has to name a class or an array. -/
def TypeName.ofReferenceDescriptor (text : String) : Except SpellingError TypeName := do
  let type ← TypeName.ofDescriptor text
  if type.isPrimitive then throw (.invalid text) else return type

/-- Read the types in annotations. -/
def typeAnnotations (annotations : List AnnotationRecord) :
    Except SpellingError TypedAnnotations :=
  annotations.mapM (AnnotationUse.mapTypes TypeName.ofReferenceDescriptor TypeName.ofDescriptor)

/-- Read the types of a field. -/
def FieldTypes.ofRecord (field : FieldRecord) : Except SpellingError FieldTypes := do
  let value ← TypeName.ofDescriptor field.descriptor
  let annotations ← typeAnnotations field.annotations
  return { value, annotations }

/-- Read the types of a method. -/
def MethodTypes.ofRecord (method : MethodRecord) : Except SpellingError MethodTypes := do
  let descriptor ← MethodDescriptor.parse method.descriptor
  let throws ← method.throws.mapM TypeName.ofClassName
  let accessOwners ← method.accesses.mapM fun access => TypeName.ofClassName access.owner
  let typeMentions ← method.typeMentions.mapM fun mention => TypeName.ofClassName mention.name
  let annotations ← typeAnnotations method.annotations
  return { descriptor, throws, accessOwners, typeMentions, annotations }

/-- Read the name of a class that a record declares: neither an array nor primitive. -/
def TypeName.ofDeclaredName (name : String) : Except SpellingError TypeName := do
  match ← TypeName.ofClassName name with
  | .object declared => return .object declared
  | _ => throw (.invalid name)

/-- Read all types of a record. -/
def RecordTypes.ofRecord (record : ClassRecord) : Except SpellingError RecordTypes := do
  let this ← TypeName.ofDeclaredName record.name
  let superclass ← record.superclass.mapM TypeName.ofClassName
  let interfaces ← record.interfaces.mapM TypeName.ofClassName
  let enclosing ← record.nesting.enclosingClass.mapM TypeName.ofClassName
  let annotations ← typeAnnotations record.annotations
  let fields ← record.fields.mapM FieldTypes.ofRecord
  let methods ← record.methods.mapM MethodTypes.ofRecord
  return { this, superclass, interfaces, enclosing, annotations, fields, methods }

/-- The types that annotations mention. -/
def annotationMentions (annotations : TypedAnnotations) : List TypeName :=
  annotations.flatMap (AnnotationUse.collect List.singleton List.singleton)

/-- The types that a field mentions, in order. -/
def FieldTypes.mentions (field : FieldTypes) : List TypeName :=
  field.value :: annotationMentions field.annotations

/-- The types that a method mentions, in order. -/
def MethodTypes.mentions (method : MethodTypes) : List TypeName :=
  method.descriptor.returnType :: method.descriptor.parameters ++ method.throws ++
    method.accessOwners ++ method.typeMentions ++ annotationMentions method.annotations

/-- The types that a record mentions, in order, without its own. -/
def RecordTypes.mentions (types : RecordTypes) : List TypeName :=
  types.superclass.toList ++ types.interfaces ++ types.enclosing.toList ++
    annotationMentions types.annotations ++ types.fields.flatMap FieldTypes.mentions ++
    types.methods.flatMap MethodTypes.mentions

end ClassAtlas
