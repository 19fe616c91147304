import ClassAtlas.ClassFile.Fault

/-!
# Decoding bytes from the front

A decoder takes a value off the front of a list of bytes and leaves the rest, or
stops with a fault. Numbers are big-endian. A decoder that needs more bytes than
there are always stops with `unexpectedEnd`.
-/

namespace ClassAtlas.ClassFile

/-- A step that takes a value off the front of the remaining bytes. -/
abbrev Decoder := StateT (List UInt8) (Except Fault)

namespace Decoder

/-- The number of two big-endian bytes. -/
def join16 (high low : UInt8) : UInt16 := .ofNat (256 * high.toNat + low.toNat)

/-- The number of four big-endian bytes. -/
def join32 (first second third fourth : UInt8) : UInt32 :=
  .ofNat (256 * (256 * (256 * first.toNat + second.toNat) + third.toNat) + fourth.toNat)

/-- One byte. -/
def u1 : Decoder UInt8 := fun bytes =>
  match bytes with
  | value :: rest => .ok (value, rest)
  | [] => .error .unexpectedEnd

/-- Two bytes as a number. -/
def u2 : Decoder UInt16 := fun bytes =>
  match bytes with
  | high :: low :: rest => .ok (join16 high low, rest)
  | _ => .error .unexpectedEnd

/-- Four bytes as a number. -/
def u4 : Decoder UInt32 := fun bytes =>
  match bytes with
  | first :: second :: third :: fourth :: rest => .ok (join32 first second third fourth, rest)
  | _ => .error .unexpectedEnd

/-- Eight bytes as a number, the more significant half first. -/
def u8 : Decoder UInt64 := do
  let high ← u4
  let low ← u4
  return .ofNat (Nat.pow 2 32 * high.toNat + low.toNat)

/-- A given number of bytes. -/
def take (count : Nat) : Decoder (List UInt8) := fun bytes =>
  let taken := bytes.take count
  if taken.length < count then .error .unexpectedEnd else .ok (taken, bytes.drop count)

/-- Pass over a given number of bytes. -/
def skip (count : Nat) : Decoder Unit := do
  let _ ← take count

/-- Require that nothing is left. -/
def finished : Decoder Unit := fun bytes =>
  match bytes with
  | [] => .ok ((), [])
  | rest => .error (.trailingBytes rest.length)

/-- Run a decoder a given number of times and collect what it takes. -/
def times {α : Type} (step : Decoder α) : Nat → Decoder (List α)
  | 0 => pure []
  | count + 1 => do
    let first ← step
    let others ← times step count
    return first :: others

/-- A two-byte count followed by that many values. -/
def counted {α : Type} (step : Decoder α) : Decoder (List α) := do
  let count ← u2
  times step count.toNat

/-- Run a decoder that has to use up all of the bytes. -/
def whole {α : Type} (step : Decoder α) (bytes : List UInt8) : Except Fault α := do
  let (value, rest) ← step.run bytes
  let _ ← finished.run rest
  return value

end Decoder

end ClassAtlas.ClassFile
