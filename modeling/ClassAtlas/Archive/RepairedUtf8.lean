/-!
# UTF-8 with replacements

Names in archives can hold bytes that are no UTF-8. A first byte announces how many bytes follow
and within which bounds the next one stands, and bytes that begin a character which they do not
finish become one replacement character together. A byte that can begin no character becomes one
by itself. Bytes that are UTF-8 throughout keep their meaning.
-/

namespace ClassAtlas.Archive.RepairedUtf8

/-- The character that stands for bytes without a meaning. -/
def replacement : Char := Char.ofNat 0xfffd

/-- A character that has begun: how many bytes are missing, the bounds of the next one, and the
value of the bits so far. -/
structure Begun where
  missing : Nat
  least : Nat
  most : Nat
  value : Nat
  deriving DecidableEq, Repr

/-- What the first byte of a longer character announces. The bounds leave out forms that are
longer than needed, surrogates, and values beyond the last character. -/
def Begun.ofFirst? (byte : Nat) : Option Begun :=
  if 0xc2 ≤ byte ∧ byte ≤ 0xdf then some ⟨1, 0x80, 0xbf, byte % 32⟩
  else if byte = 0xe0 then some ⟨2, 0xa0, 0xbf, 0⟩
  else if byte = 0xed then some ⟨2, 0x80, 0x9f, byte % 16⟩
  else if 0xe1 ≤ byte ∧ byte ≤ 0xef then some ⟨2, 0x80, 0xbf, byte % 16⟩
  else if byte = 0xf0 then some ⟨3, 0x90, 0xbf, 0⟩
  else if 0xf1 ≤ byte ∧ byte ≤ 0xf3 then some ⟨3, 0x80, 0xbf, byte % 8⟩
  else if byte = 0xf4 then some ⟨3, 0x80, 0x8f, byte % 8⟩
  else none

/-- A byte between characters: the characters it gives, and the one it begins. -/
def first (byte : UInt8) : List Char × Option Begun :=
  if byte.toNat < 0x80 then ([Char.ofNat byte.toNat], none)
  else
    match Begun.ofFirst? byte.toNat with
    | some begun => ([], some begun)
    | none => ([replacement], none)

/-- The next byte, which finishes a character, continues it, or breaks it off. -/
def step : Option Begun → UInt8 → List Char × Option Begun
  | none, byte => first byte
  | some begun, byte =>
    if begun.least ≤ byte.toNat ∧ byte.toNat ≤ begun.most then
      let value := begun.value * 64 + byte.toNat % 64
      if begun.missing ≤ 1 then ([Char.ofNat value], none)
      else ([], some ⟨begun.missing - 1, 0x80, 0xbf, value⟩)
    else
      let (found, next) := first byte
      (replacement :: found, next)

/-- The characters of bytes, the first of which may belong to a character that has begun. -/
def charsFrom : Option Begun → List UInt8 → List Char
  | none, [] => []
  | some _, [] => [replacement]
  | begun, byte :: rest =>
    let (found, next) := step begun byte
    found ++ charsFrom next rest

/-- The text of bytes. -/
def decode (bytes : List UInt8) : String := String.ofList (charsFrom none bytes)

end ClassAtlas.Archive.RepairedUtf8
