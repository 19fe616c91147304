import ClassAtlas.Toml.Quoted
import ClassAtlas.Toml.Value

/-!
# Numbers

Digits may be grouped by single underscores. A decimal number has no leading zeros. An integer
has to fit 64 bits with a sign. A fraction or an exponent makes a floating point number, which is
rounded to the nearest 64-bit number; one that is too large is refused, unless it is negative.
-/

namespace ClassAtlas.Toml.Number

/-- Further digits, each possibly after an underscore. -/
def moreDigits (test : Char → Bool) : Scanner (List Char) :=
  Scanner.repeated (Scanner.letterWhere test <|> (do Scanner.letter '_'; Scanner.letterWhere test))

/-- Digits that may start with zeros. -/
def digits (test : Char → Bool) : Scanner (List Char) := do
  let first ← Scanner.letterWhere test
  return first :: (← moreDigits test)

/-- Whether a minus sign stands in front; a plus sign is read too. -/
def sign : Scanner Bool := do
  match ← Scanner.optional (Scanner.letterWhere fun letter => letter = '+' || letter = '-') with
  | some '-' => return true
  | _ => return false

/-- The digits of a decimal number: zero alone, or digits that do not start with zero. -/
def whole : Scanner (List Char) := do
  let first ← Scanner.letterWhere Char.isDigit
  if first = '0' then return [first] else return first :: (← moreDigits Char.isDigit)

/-- A number with or without its sign. -/
def signed (negative : Bool) (size : Nat) : Int := if negative then -(size : Int) else size

/-- The integers of 64 bits with a sign. -/
def fits (value : Int) : Bool := -Int.pow 2 63 ≤ value && value < Int.pow 2 63

/-- An integer in a base other than ten; its form takes no sign. -/
def based (mark : String) (base : Nat) : Scanner Int := do
  Scanner.word mark
  let found ← digits fun letter => (Quoted.hexValue? letter).any (· < base)
  let value := found.foldl (fun value digit => base * value + (Quoted.hexValue? digit).getD 0) 0
  return (value : Int)

/-- A decimal integer. -/
def decimal : Scanner Int := do
  let negative ← sign
  return signed negative (Scanner.number (← whole))

/-- An integer. -/
def integer : Scanner Int := do
  let value ← based "0x" 16 <|> based "0o" 8 <|> based "0b" 2 <|> decimal
  if fits value then return value else failure

/-- The bit of the sign. -/
def signBit : UInt64 := 0x8000000000000000

/-- The bits of the positive infinity. -/
def infinity : UInt64 := 0x7ff0000000000000

/-- The bits of a value that is no number. -/
def notNumber : UInt64 := 0x7ff8000000000000

/-- The bits of the number nearest to `mantissa` times a power of ten. Beyond the powers of ten
that 64 bits can hold the result is infinity or zero. -/
def nearest (mantissa : Nat) (exponent : Int) : UInt64 :=
  let magnitude := exponent + (Nat.toDigits 10 mantissa).length
  if mantissa = 0 || magnitude < -400 then 0
  else if 400 < magnitude then infinity
  else (Float.ofScientific mantissa (exponent < 0) exponent.natAbs).toBits

/-- Bits with or without the bit of the sign. -/
def withSign (negative : Bool) (bits : UInt64) : UInt64 :=
  if negative then bits ||| signBit else bits

/-- The fraction of a number. -/
def fraction : Scanner (List Char) := do
  Scanner.letter '.'
  digits Char.isDigit

/-- The exponent of a number. -/
def exponent : Scanner Int := do
  let _ ← Scanner.letterWhere fun letter => letter = 'e' || letter = 'E'
  let negative ← sign
  return signed negative (Scanner.number (← digits Char.isDigit))

/-- A floating point number in digits: a fraction, an exponent, or both. -/
def scientific : Scanner UInt64 := do
  let negative ← sign
  let before ← whole
  let after ← Scanner.optional fraction
  let power ← Scanner.optional exponent
  if after.isNone && power.isNone then failure
  let after := after.getD []
  let bits := nearest (Scanner.number (before ++ after)) (power.getD 0 - after.length)
  if bits = infinity && !negative then failure
  return withSign negative bits

/-- A floating point number in words. -/
def special : Scanner UInt64 := do
  let negative ← sign
  let bits ← (do Scanner.word "inf"; return infinity) <|> (do Scanner.word "nan"; return notNumber)
  return withSign negative bits

/-- A number, or a date or time. -/
def value : Scanner Value :=
  (do return .datetime (← Datetime.scan)) <|> (do return .float (← scientific)) <|>
    (do return .float (← special)) <|> (do return .integer (← integer))

end ClassAtlas.Toml.Number
