/-!
# Numbers in archives

Numbers in archives are stored lowest byte first. Records begin with a mark of four bytes.
-/

namespace ClassAtlas.Archive

/-- The number that bytes stand for, lowest byte first. -/
def lowFirst : List UInt8 → Nat
  | [] => 0
  | byte :: rest => byte.toNat + 256 * lowFirst rest

/-- A number of so many bytes at a place. -/
def number? (bytes : Array UInt8) (start : Nat) : Nat → Option Nat
  | 0 => some 0
  | count + 1 => do
    let low ← bytes[start]?
    return low.toNat + 256 * (← number? bytes (start + 1) count)

/-- Whether a mark stands at a place. -/
def markedAt (bytes : Array UInt8) (mark place : Nat) : Bool := number? bytes place 4 = some mark

end ClassAtlas.Archive
