import ClassAtlas.Toml.Datetime

/-!
# Values of a settings document

Floating point numbers are kept as the bits of their 64-bit form, so that values have a
decidable identity. The entries of a table stand in the order in which they were written.
-/

namespace ClassAtlas.Toml

/-- A value of a settings document. -/
inductive Value
  | string (text : String)
  | integer (value : Int)
  | float (bits : UInt64)
  | boolean (value : Bool)
  | datetime (value : Datetime)
  | array (values : List Value)
  | table (entries : List (String × Value))

end ClassAtlas.Toml
