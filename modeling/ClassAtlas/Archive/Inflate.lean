/-!
# Compressed data

Entries of archives may be compressed by references to earlier output and by prefix codes. The
data is a sequence of blocks: bytes as they are, symbols in fixed codes, or symbols in codes that
the block describes first. Bits are taken from the low end of each byte.

Data that ends before its last block does is incomplete; data that no encoder writes is corrupt.
A reference to what stands before the output is to zeros.
-/

namespace ClassAtlas.Archive

/-- Why compressed data cannot be decoded. -/
inductive StreamFault
  | incomplete
  | corrupt
  deriving DecidableEq, Repr

/-- The wording of a fault in compressed data. -/
def StreamFault.message : StreamFault → String
  | incomplete => "incomplete deflate stream"
  | corrupt => "corrupt deflate stream"

/-- A prefix code as a tree; a path of bits leads to a symbol. -/
inductive PrefixCode
  | unused
  | symbol (value : Nat)
  | fork (zero one : PrefixCode)

/-- The bits of a byte, lowest first. -/
def byteBits (byte : UInt8) : List Bool := (List.range 8).map byte.toNat.testBit

/-- The number of bits, lowest first. -/
def bitsValue : List Bool → Nat
  | [] => 0
  | bit :: rest => bit.toNat + 2 * bitsValue rest

/-- Take a number of so many bits. -/
def takeNumber (count : Nat) (bits : List Bool) : Except StreamFault (Nat × List Bool) :=
  let taken := bits.take count
  if taken.length < count then .error .incomplete else .ok (bitsValue taken, bits.drop count)

namespace PrefixCode

/-- Add a symbol at the end of a path. -/
def insert (value : Nat) : List Bool → PrefixCode → PrefixCode
  | [], _ => symbol value
  | false :: rest, fork zero one => fork (insert value rest zero) one
  | true :: rest, fork zero one => fork zero (insert value rest one)
  | false :: rest, _ => fork (insert value rest unused) unused
  | true :: rest, _ => fork unused (insert value rest unused)

/-- The bits of a code word, highest first. -/
def wordBits (length word : Nat) : List Bool := (List.range length).reverse.map word.testBit

/-- Give the symbols of one length successive code words. -/
def assignLength (length : Nat) (lengths : List (Nat × Nat)) (state : Nat × PrefixCode) :
    Nat × PrefixCode :=
  lengths.foldl
    (fun (word, code) (value, symbolLength) =>
      if symbolLength = length then (word + 1, code.insert value (wordBits length word))
      else (word, code))
    state

/-- The share of all words of 15 bits that begin with a word of given lengths, out of `2 ^ 15`. -/
def share (lengths : List Nat) : Nat :=
  ((lengths.filter (0 < ·)).map fun length => Nat.pow 2 (15 - length)).foldl (· + ·) 0

/-- Whether the words of given lengths use up all bits. -/
def isComplete (lengths : List Nat) : Bool := share lengths = Nat.pow 2 15

/-- Whether there is no word at all, or only one, of a single bit. -/
def isTrivial (lengths : List Nat) : Bool :=
  let used := lengths.filter (0 < ·)
  used = [] || used = [1]

/-- The code whose words have given lengths, in which shorter words come first and words of one
length follow the order of their symbols. Length zero means that a symbol has no word. Every word
has a bit at least. -/
def ofLengths (lengths : List Nat) : PrefixCode :=
  let symbols := lengths.zipIdx.map fun (length, value) => (value, length)
  ((List.range 15).foldl
    (fun (word, code) shorter => assignLength (shorter + 1) symbols (2 * word, code))
    (0, fork unused unused)).2

/-- Read a symbol. A word without a symbol is corrupt. -/
def read : PrefixCode → List Bool → Except StreamFault (Nat × List Bool)
  | unused, _ => .error .corrupt
  | symbol value, bits => .ok (value, bits)
  | fork _ _, [] => .error .incomplete
  | fork zero _, false :: rest => zero.read rest
  | fork _ one, true :: rest => one.read rest

end PrefixCode

/-- The least lengths of copies by symbol, from 257 on, with the number of extra bits. -/
def lengthRows : Array (Nat × Nat) :=
  #[(3, 0), (4, 0), (5, 0), (6, 0), (7, 0), (8, 0), (9, 0), (10, 0), (11, 1), (13, 1), (15, 1),
    (17, 1), (19, 2), (23, 2), (27, 2), (31, 2), (35, 3), (43, 3), (51, 3), (59, 3), (67, 4),
    (83, 4), (99, 4), (115, 4), (131, 5), (163, 5), (195, 5), (227, 5), (258, 0)]

/-- The least distances of copies by symbol, with the number of extra bits. -/
def distanceRows : Array (Nat × Nat) :=
  #[(1, 0), (2, 0), (3, 0), (4, 0), (5, 1), (7, 1), (9, 2), (13, 2), (17, 3), (25, 3), (33, 4),
    (49, 4), (65, 5), (97, 5), (129, 6), (193, 6), (257, 7), (385, 7), (513, 8), (769, 8),
    (1025, 9), (1537, 9), (2049, 10), (3073, 10), (4097, 11), (6145, 11), (8193, 12), (12289, 12),
    (16385, 13), (24577, 13)]

/-- The byte at a distance back. -/
def byteBack (distance : Nat) (output : Array UInt8) : UInt8 :=
  if output.size < distance then 0 else output.getD (output.size - distance) 0

/-- Copy so many bytes from a distance back; the copy may overlap its own output. -/
def copyBack (distance : Nat) : Nat → Array UInt8 → Array UInt8
  | 0, output => output
  | count + 1, output => copyBack distance count (output.push (byteBack distance output))

/-- A value given by a table row and extra bits. -/
def rowValue (rows : Array (Nat × Nat)) (row : Nat) (bits : List Bool) :
    Except StreamFault (Nat × List Bool) :=
  match rows[row]? with
  | none => .error .corrupt
  | some (least, extra) => do
    let (more, rest) ← takeNumber extra bits
    return (least + more, rest)

/-- Decode the symbols of a block up to its end. Every symbol takes a bit, and so the number of
bits bounds the rounds. -/
def symbols (literals distances : PrefixCode) :
    Nat → Array UInt8 → List Bool → Except StreamFault (Array UInt8 × List Bool)
  | 0, _, _ => .error .incomplete
  | rounds + 1, output, bits => do
    let (value, rest) ← literals.read bits
    if value < 256 then symbols literals distances rounds (output.push (.ofNat value)) rest
    else if value = 256 then return (output, rest)
    else
      let (length, rest) ← rowValue lengthRows (value - 257) rest
      let (row, rest) ← distances.read rest
      let (distance, rest) ← rowValue distanceRows row rest
      symbols literals distances rounds (copyBack distance length output) rest

/-- A block of bytes as they are, from the next whole byte on. -/
def plainBlock (output : Array UInt8) (bits : List Bool) :
    Except StreamFault (Array UInt8 × List Bool) := do
  let (size, rest) ← takeNumber 16 (bits.drop (bits.length % 8))
  let (complement, rest) ← takeNumber 16 rest
  if size + complement ≠ 65535 then throw .corrupt
  bytes size output rest
where
  /-- Take so many bytes. -/
  bytes : Nat → Array UInt8 → List Bool → Except StreamFault (Array UInt8 × List Bool)
    | 0, output, bits => .ok (output, bits)
    | count + 1, output, bits => do
      let (value, rest) ← takeNumber 8 bits
      bytes count (output.push (.ofNat value)) rest

/-- The lengths of the fixed code for literals. -/
def fixedLengths : List Nat :=
  List.replicate 144 8 ++ List.replicate 112 9 ++ List.replicate 24 7 ++ List.replicate 8 8

/-- The order in which the lengths of the code for lengths are stored. -/
def lengthOrder : List Nat := [16, 17, 18, 0, 8, 7, 9, 6, 10, 5, 11, 4, 12, 3, 13, 2, 14, 1, 15]

/-- Take several numbers of three bits. -/
def smallNumbers : Nat → List Bool → Except StreamFault (List Nat × List Bool)
  | 0, bits => .ok ([], bits)
  | count + 1, bits => do
    let (value, rest) ← takeNumber 3 bits
    let (values, rest) ← smallNumbers count rest
    return (value :: values, rest)

/-- Take code lengths: a length itself, or a repetition of the last length or of zero. -/
def codeLengths (code : PrefixCode) (wanted : Nat) :
    Nat → Array Nat → List Bool → Except StreamFault (List Nat × List Bool)
  | 0, _, _ => .error .incomplete
  | rounds + 1, found, bits =>
    if wanted ≤ found.size then
      if wanted < found.size then .error .corrupt else .ok (found.toList, bits)
    else do
      let (value, rest) ← code.read bits
      if value < 16 then codeLengths code wanted rounds (found.push value) rest
      else
        let (again, extra, least) ←
          match value, found.back? with
          | 16, some last => pure (last, 2, 3)
          | 16, none => throw .corrupt
          | 17, _ => pure (0, 3, 3)
          | _, _ => pure (0, 7, 11)
        let (more, rest) ← takeNumber extra rest
        codeLengths code wanted rounds (found ++ Array.replicate (least + more) again) rest

/-- The code of a block for literals or distances, which is complete or trivial. -/
def codeOf (lengths : List Nat) : Except StreamFault PrefixCode :=
  if PrefixCode.isComplete lengths || PrefixCode.isTrivial lengths then
    .ok (.ofLengths lengths)
  else .error .corrupt

/-- The code for code lengths, which is complete. -/
def lengthCodeOf (lengths : List Nat) : Except StreamFault PrefixCode :=
  if PrefixCode.isComplete lengths then .ok (.ofLengths lengths) else .error .corrupt

/-- The codes that a block describes, for literals and for distances. -/
def describedCodes (bits : List Bool) :
    Except StreamFault ((PrefixCode × PrefixCode) × List Bool) := do
  let (literalCount, rest) ← takeNumber 5 bits
  let (distanceCount, rest) ← takeNumber 5 rest
  let (lengthCount, rest) ← takeNumber 4 rest
  let literals := literalCount + 257
  let distances := distanceCount + 1
  if 286 < literals ∨ 30 < distances then throw .corrupt
  let (stored, rest) ← smallNumbers (lengthCount + 4) rest
  let lengths := (List.range 19).map fun symbol =>
    ((lengthOrder.zip stored).lookup symbol).getD 0
  let code ← lengthCodeOf lengths
  let wanted := literals + distances
  let (found, rest) ← codeLengths code wanted (wanted + 1) #[] rest
  let literalCode ← codeOf (found.take literals)
  let distanceCode ← codeOf (found.drop literals)
  return ((literalCode, distanceCode), rest)

/-- Decode one block after its kind. -/
def block (kind : Nat) (output : Array UInt8) (bits : List Bool) :
    Except StreamFault (Array UInt8 × List Bool) :=
  match kind with
  | 0 => plainBlock output bits
  | 1 =>
    symbols (.ofLengths fixedLengths) (.ofLengths (List.replicate 32 5)) (bits.length + 1) output
      bits
  | 2 => do
    let ((literals, distances), rest) ← describedCodes bits
    symbols literals distances (rest.length + 1) output rest
  | _ => .error .corrupt

/-- Decode blocks up to the last one. -/
def blocks : Nat → Array UInt8 → List Bool → Except StreamFault (Array UInt8)
  | 0, _, _ => .error .incomplete
  | rounds + 1, output, bits => do
    let (last, rest) ← takeNumber 1 bits
    let (kind, rest) ← takeNumber 2 rest
    let (output, rest) ← block kind output rest
    if last = 1 then return output else blocks rounds output rest

/-- Decode compressed bytes. What follows the last block is ignored. -/
def inflate (bytes : List UInt8) : Except StreamFault (List UInt8) := do
  let bits := bytes.flatMap byteBits
  return (← blocks (bits.length + 1) #[] bits).toList

end ClassAtlas.Archive
