/-!
# Modified UTF-8

String constants of class files are written in 16-bit code units, each unit in one
to three bytes: zero and the units from 0x80 to 0x7FF in two, those from 0x800 in
three, all others in one. A character outside the basic plane is therefore written as
two surrogate units of three bytes each. The decoder first reads the units and then
joins surrogates; a surrogate without its partner is refused. Longer forms than needed
are accepted when reading, and never written.
-/

namespace ClassAtlas.ClassFile.ModifiedUtf8

/-- The bytes that continue a unit. -/
def isContinuation (byte : UInt8) : Bool := 0x80 ≤ byte.toNat && byte.toNat < 0xC0

/-- The first half of a surrogate pair. -/
def isHighSurrogate (codeUnit : Nat) : Bool := 0xD800 ≤ codeUnit && codeUnit < 0xDC00

/-- The second half of a surrogate pair. -/
def isLowSurrogate (codeUnit : Nat) : Bool := 0xDC00 ≤ codeUnit && codeUnit < 0xE000

/-- The 16-bit code units that the bytes spell. -/
def units : List UInt8 → Option (List Nat)
  | [] => some []
  | lead :: rest =>
    if lead.toNat = 0 then none
    else if lead.toNat < 0x80 then (units rest).map (lead.toNat :: ·)
    else if 0xC0 ≤ lead.toNat && lead.toNat < 0xE0 then
      match rest with
      | second :: rest =>
        if isContinuation second then
          (units rest).map ((lead.toNat % 32 * 64 + second.toNat % 64) :: ·)
        else none
      | [] => none
    else if 0xE0 ≤ lead.toNat && lead.toNat < 0xF0 then
      match rest with
      | second :: third :: rest =>
        if isContinuation second && isContinuation third then
          (units rest).map
            ((lead.toNat % 16 * 4096 + second.toNat % 64 * 64 + third.toNat % 64) :: ·)
        else none
      | _ => none
    else none

/-- The characters that code units spell, surrogates joined in pairs. -/
def characters : List Nat → Option (List Char)
  | [] => some []
  | first :: rest =>
    if isHighSurrogate first then
      match rest with
      | second :: rest =>
        if isLowSurrogate second then
          (characters rest).map
            (Char.ofNat (0x10000 + (first - 0xD800) * 1024 + (second - 0xDC00)) :: ·)
        else none
      | [] => none
    else if isLowSurrogate first then none
    else (characters rest).map (Char.ofNat first :: ·)

/-- The general decoding, by way of code units. -/
def decodeUnits (bytes : List UInt8) : Option String :=
  ((units bytes).bind characters).map String.ofList

/-- Plain bytes stand for the character of the same number. -/
def isPlain (byte : UInt8) : Bool := 0 < byte.toNat && byte.toNat < 0x80

/-- Decode a string constant; one of plain bytes only is taken letter by letter. -/
def decode (bytes : List UInt8) : Option String :=
  if bytes.all isPlain then some (String.ofList (bytes.map fun byte => Char.ofNat byte.toNat))
  else decodeUnits bytes

/-- The bytes of one code unit. -/
def encodeUnit (codeUnit : Nat) : List UInt8 :=
  if codeUnit = 0 ∨ 0x80 ≤ codeUnit ∧ codeUnit < 0x800 then
    [.ofNat (0xC0 + codeUnit / 64), .ofNat (0x80 + codeUnit % 64)]
  else if codeUnit < 0x80 then [.ofNat codeUnit]
  else
    [.ofNat (0xE0 + codeUnit / 4096), .ofNat (0x80 + codeUnit / 64 % 64),
      .ofNat (0x80 + codeUnit % 64)]

/-- The code units of a character: one, or a surrogate pair. -/
def unitsOf (letter : Char) : List Nat :=
  if letter.toNat < 0x10000 then [letter.toNat]
  else
    [0xD800 + (letter.toNat - 0x10000) / 1024, 0xDC00 + (letter.toNat - 0x10000) % 1024]

/-- The bytes of a string constant. -/
def encode (text : String) : List UInt8 :=
  (text.toList.flatMap unitsOf).flatMap encodeUnit

end ClassAtlas.ClassFile.ModifiedUtf8
