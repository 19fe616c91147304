/-!
# SHA-256

The digest of a message: the message is padded to blocks of sixty-four bytes, each
block is stretched to sixty-four words, and sixty-four rounds mix these into a state of
eight words, to which the state before the block is added.
-/

namespace ClassAtlas.Digest.Sha256

/-- The eight words that are carried from block to block. -/
structure State where
  a : UInt32
  b : UInt32
  c : UInt32
  d : UInt32
  e : UInt32
  f : UInt32
  g : UInt32
  h : UInt32

/-- The state before the first block. -/
def initial : State :=
  ⟨0x6a09e667, 0xbb67ae85, 0x3c6ef372, 0xa54ff53a, 0x510e527f, 0x9b05688c, 0x1f83d9ab, 0x5be0cd19⟩

/-- One constant for each round. -/
def roundConstants : List UInt32 := [
  0x428a2f98, 0x71374491, 0xb5c0fbcf, 0xe9b5dba5, 0x3956c25b, 0x59f111f1, 0x923f82a4, 0xab1c5ed5,
  0xd807aa98, 0x12835b01, 0x243185be, 0x550c7dc3, 0x72be5d74, 0x80deb1fe, 0x9bdc06a7, 0xc19bf174,
  0xe49b69c1, 0xefbe4786, 0x0fc19dc6, 0x240ca1cc, 0x2de92c6f, 0x4a7484aa, 0x5cb0a9dc, 0x76f988da,
  0x983e5152, 0xa831c66d, 0xb00327c8, 0xbf597fc7, 0xc6e00bf3, 0xd5a79147, 0x06ca6351, 0x14292967,
  0x27b70a85, 0x2e1b2138, 0x4d2c6dfc, 0x53380d13, 0x650a7354, 0x766a0abb, 0x81c2c92e, 0x92722c85,
  0xa2bfe8a1, 0xa81a664b, 0xc24b8b70, 0xc76c51a3, 0xd192e819, 0xd6990624, 0xf40e3585, 0x106aa070,
  0x19a4c116, 0x1e376c08, 0x2748774c, 0x34b0bcb5, 0x391c0cb3, 0x4ed8aa4a, 0x5b9cca4f, 0x682e6ff3,
  0x748f82ee, 0x78a5636f, 0x84c87814, 0x8cc70208, 0x90befffa, 0xa4506ceb, 0xbef9a3f7, 0xc67178f2]

/-- Rotation to the right. -/
def rotate (word : UInt32) (count : UInt32) : UInt32 :=
  (word >>> count) ||| (word <<< (32 - count))

/-- The words of a block, four big-endian bytes each. -/
def words : List UInt8 → List UInt32
  | first :: second :: third :: fourth :: rest =>
    ((first.toUInt32 <<< 24) ||| (second.toUInt32 <<< 16) ||| (third.toUInt32 <<< 8) |||
      fourth.toUInt32) :: words rest
  | _ => []

/-- Stretch the words by a given number; each new one depends on four earlier. -/
def stretch (known : Array UInt32) : Nat → Array UInt32
  | 0 => known
  | count + 1 =>
    let back (distance : Nat) : UInt32 := known.getD (known.size - distance) 0
    let low := rotate (back 15) 7 ^^^ rotate (back 15) 18 ^^^ (back 15 >>> 3)
    let high := rotate (back 2) 17 ^^^ rotate (back 2) 19 ^^^ (back 2 >>> 10)
    stretch (known.push (back 16 + low + back 7 + high)) count

/-- One round with its constant and its word. -/
def mixRound (state : State) (constant word : UInt32) : State :=
  let high := rotate state.e 6 ^^^ rotate state.e 11 ^^^ rotate state.e 25
  let choice := (state.e &&& state.f) ^^^ ((~~~state.e) &&& state.g)
  let first := state.h + high + choice + constant + word
  let low := rotate state.a 2 ^^^ rotate state.a 13 ^^^ rotate state.a 22
  let majority := (state.a &&& state.b) ^^^ (state.a &&& state.c) ^^^ (state.b &&& state.c)
  { a := first + (low + majority), b := state.a, c := state.b, d := state.c,
    e := state.d + first, f := state.e, g := state.f, h := state.g }

/-- Mix one block into the state. -/
def compress (state : State) (block : List UInt8) : State :=
  let schedule := (stretch (words block).toArray 48).toList
  let mixed := (roundConstants.zip schedule).foldl
    (fun current pair => mixRound current pair.1 pair.2) state
  { a := state.a + mixed.a, b := state.b + mixed.b, c := state.c + mixed.c,
    d := state.d + mixed.d, e := state.e + mixed.e, f := state.f + mixed.f,
    g := state.g + mixed.g, h := state.h + mixed.h }

/-- The bytes of a number, most significant first. -/
def bigEndian (width value : Nat) : List UInt8 :=
  (List.range width).map fun index => .ofNat (value >>> (8 * (width - 1 - index)))

/-- The message, a closing bit, zeros up to a full block, and the length in bits. -/
def pad (message : List UInt8) : List UInt8 :=
  let zeros := (119 - message.length % 64) % 64
  message ++ 0x80 :: (List.replicate zeros 0 ++ bigEndian 8 (8 * message.length))

/-- Mix all full blocks of a padded message. -/
def compressAll (state : State) (bytes : List UInt8) : State :=
  match bytes with
  | [] => state
  | first :: rest =>
    compressAll (compress state ((first :: rest).take 64)) (rest.drop 63)
termination_by bytes.length

/-- The thirty-two bytes of the digest. -/
def hash (message : List UInt8) : List UInt8 :=
  let state := compressAll initial (pad message)
  [state.a, state.b, state.c, state.d, state.e, state.f, state.g, state.h].flatMap
    fun word => bigEndian 4 word.toNat

end ClassAtlas.Digest.Sha256
