import ClassAtlas.Types.Descriptor
import Std.Data.HashMap

/-!
# A cache of read types

A cache remembers successful readings of type names, field descriptors and method
descriptors, each kind apart, so that a text read twice is parsed once. Failures are
not remembered.
-/

namespace ClassAtlas

/-- What was read so far, by kind of text. -/
structure DescriptorCache where
  types : Std.HashMap String TypeName := ∅
  fields : Std.HashMap String TypeName := ∅
  methods : Std.HashMap String MethodDescriptor := ∅

namespace DescriptorCache

/-- The cache before anything was read. -/
def empty : DescriptorCache := {}

/-- Look a text up, or read it and remember the result if it could be read. -/
def remember {α : Type} (known : Std.HashMap String α) (read : String → Except SpellingError α)
    (text : String) : Except SpellingError α × Std.HashMap String α :=
  match known[text]? with
  | some value => (.ok value, known)
  | none =>
    match read text with
    | .ok value => (.ok value, known.insert text value)
    | .error problem => (.error problem, known)

/-- Read any spelling of a type. -/
def resolve (cache : DescriptorCache) (text : String) :
    Except SpellingError TypeName × DescriptorCache :=
  let (answer, types) := remember cache.types TypeName.parse text
  (answer, { cache with types })

/-- Read a field descriptor. -/
def field (cache : DescriptorCache) (text : String) :
    Except SpellingError TypeName × DescriptorCache :=
  let (answer, fields) := remember cache.fields TypeName.ofDescriptor text
  (answer, { cache with fields })

/-- Read a method descriptor. -/
def method (cache : DescriptorCache) (text : String) :
    Except SpellingError MethodDescriptor × DescriptorCache :=
  let (answer, methods) := remember cache.methods MethodDescriptor.parse text
  (answer, { cache with methods })

/-- The number of remembered readings of all kinds. -/
def size (cache : DescriptorCache) : Nat :=
  cache.types.size + cache.fields.size + cache.methods.size

/-- Whether nothing was remembered yet. -/
def isEmpty (cache : DescriptorCache) : Bool := cache.size = 0

end DescriptorCache

end ClassAtlas
