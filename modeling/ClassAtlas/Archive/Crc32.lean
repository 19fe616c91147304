/-!
# Cyclic redundancy check

The 32-bit check value that archives store for each entry: the remainder of a polynomial
division over bits, computed byte by byte from the low bit on.
-/

namespace ClassAtlas.Archive

/-- The dividing polynomial, low powers in high bits. -/
def crcPolynomial : UInt32 := 0xedb88320

/-- One bit of the division. -/
def crcBit (state : UInt32) : UInt32 :=
  if state &&& 1 = 1 then (state >>> 1) ^^^ crcPolynomial else state >>> 1

/-- One byte of the division. -/
def crcByte (state : UInt32) (byte : UInt8) : UInt32 :=
  Nat.repeat crcBit 8 (state ^^^ byte.toUInt32)

/-- The check value of bytes. -/
def crc32 (bytes : List UInt8) : UInt32 := bytes.foldl crcByte 0xffffffff ^^^ 0xffffffff

end ClassAtlas.Archive
