/-!
# Fields by name or by position

A record may be written as a table of named fields or as a list of fields in order. Both
are looked up here in one way; names beyond the known ones do no harm.
-/

namespace ClassAtlas

/-- The fields of a record, whose values are of type `ν`. -/
inductive Fields (ν : Type)
  | named (entries : List (String × ν))
  | positional (values : List ν)

namespace Fields

variable {ν α : Type}

/-- The value of a field, by its name or its position. -/
def find? (fields : Fields ν) (name : String) (position : Nat) : Option ν :=
  match fields with
  | named entries => (entries.find? fun entry => entry.1 = name).map Prod.snd
  | positional values => values[position]?

/-- A field that has to be there. -/
def required (fields : Fields ν) (name : String) (position : Nat) (decode : ν → Option α) :
    Option α :=
  (fields.find? name position).bind decode

/-- A field that has a default; present, it has to be well formed. -/
def withDefault (fields : Fields ν) (name : String) (position : Nat) (fallback : α)
    (decode : ν → Option α) : Option α :=
  match fields.find? name position with
  | some value => decode value
  | none => some fallback

end Fields

end ClassAtlas
