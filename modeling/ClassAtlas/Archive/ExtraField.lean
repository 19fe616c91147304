import ClassAtlas.Archive.Crc32
import ClassAtlas.Archive.Entry
import ClassAtlas.Archive.Number

/-!
# Extra fields

An entry of the directory can carry extra fields, each with a kind and a length. They replace
sizes that are too large for their place, the name and the comment, or tell that the data is
sealed. Fields of other kinds are passed over.

A field takes what its kind needs, and the next one follows. Where the bytes end within a field,
what was taken before counts. A field that contradicts its kind makes the entry invalid.
-/

namespace ClassAtlas.Archive

namespace ExtraField

/-- The kinds of fields. -/
inductive Kind
  | sizes
  | fileTimes
  | encryption
  | timestamps
  | comment
  | name
  | other
  deriving DecidableEq, Repr

/-- The kind with a number. -/
def Kind.ofNumber : Nat → Kind
  | 0x0001 => sizes
  | 0x000a => fileTimes
  | 0x9901 => encryption
  | 0x5455 => timestamps
  | 0x6375 => comment
  | 0x7075 => name
  | _ => other

/-- Why fields are read no further. -/
inductive Stop
  | ended (entry : Entry)
  | invalid
  deriving DecidableEq, Repr

/-- Take so many bytes, or stop with the entry so far. -/
def takeBytes (entry : Entry) (count : Nat) (bytes : List UInt8) :
    Except Stop (List UInt8 × List UInt8) :=
  if bytes.length < count then .error (.ended entry) else .ok (bytes.take count, bytes.drop count)

/-- Take a number of so many bytes, or stop with the entry so far. -/
def takeNumber (entry : Entry) (count : Nat) (bytes : List UInt8) :
    Except Stop (Nat × List UInt8) := do
  let (taken, rest) ← takeBytes entry count bytes
  return (lowFirst taken, rest)

/-- Pass over so many bytes. -/
def skip (entry : Entry) (count : Nat) (bytes : List UInt8) : Except Stop (Entry × List UInt8) := do
  let (_, rest) ← takeBytes entry count bytes
  return (entry, rest)

/-- The number that stands for one too large for its place. -/
def tooLarge : Nat := 0xffffffff

/-- Take a number of eight bytes into an entry, if it is wanted. -/
def takeLong (wanted : Bool) (put : Nat → Entry) (entry : Entry) (bytes : List UInt8) :
    Except Stop (Entry × List UInt8) :=
  if wanted then do
    let (value, rest) ← takeNumber entry 8 bytes
    return (put value, rest)
  else .ok (entry, bytes)

/-- Read sizes and the place of the header. A short field holds only those that are too large for
their place. -/
def readSizes (length : Nat) (entry : Entry) (bytes : List UInt8) :
    Except Stop (Entry × List UInt8) := do
  let all := 24 ≤ length
  let (entry, rest) ← takeLong (all || entry.fullSize = tooLarge)
    (fun value => { entry with fullSize := value }) entry bytes
  let (entry, rest) ← takeLong (all || entry.size = tooLarge)
    (fun value => { entry with size := value }) entry rest
  let (entry, rest) ← takeLong (all || entry.header = tooLarge)
    (fun value => { entry with header := value }) entry rest
  let taken := bytes.length - rest.length
  if length < taken then throw .invalid
  skip entry (length - taken) rest

/-- Read the times of a file: one attribute of three long numbers. -/
def readFileTimes (length : Nat) (entry : Entry) (bytes : List UInt8) :
    Except Stop (Entry × List UInt8) := do
  if length ≠ 32 then throw .invalid
  let (_, rest) ← takeNumber entry 4 bytes
  let (tag, rest) ← takeNumber entry 2 rest
  if tag ≠ 1 then throw .invalid
  let (size, rest) ← takeNumber entry 2 rest
  if size ≠ 24 then throw .invalid
  skip entry 24 rest

/-- Read how the data is sealed; the method of the entry stands here. -/
def readEncryption (length : Nat) (entry : Entry) (bytes : List UInt8) :
    Except Stop (Entry × List UInt8) := do
  if length ≠ 7 then throw .invalid
  let (version, rest) ← takeNumber entry 2 bytes
  let (vendor, rest) ← takeNumber entry 2 rest
  let (strength, rest) ← takeNumber entry 1 rest
  let (method, rest) ← takeNumber entry 2 rest
  if vendor = 0x4541 ∧ version ∈ [1, 2] ∧ strength ∈ [1, 2, 3] then
    return ({ entry with method, isSealed := true }, rest)
  else throw .invalid

/-- Read timestamps. The three lowest flags announce one each; the first may also stand alone. -/
def readTimestamps (length : Nat) (entry : Entry) (bytes : List UInt8) :
    Except Stop (Entry × List UInt8) := do
  let (flags, rest) ← takeNumber entry 1 bytes
  let announced := ((List.range 8).filter flags.testBit).length
  if length ≠ 5 ∧ length ≠ 1 + 4 * announced then throw .invalid
  if 8 ≤ flags then throw .invalid
  skip entry (length - 1) rest

/-- Read a text that replaces another one, given by its check value. -/
def readText (length : Nat) (replaced : List UInt8) (entry : Entry) (bytes : List UInt8) :
    Except Stop (String × List UInt8) := do
  let (_, rest) ← takeNumber entry 1 bytes
  let (check, rest) ← takeNumber entry 4 rest
  if length < 5 then throw .invalid
  let (content, rest) ← takeBytes entry (length - 5) rest
  if check ≠ (crc32 replaced).toNat then throw .invalid
  match String.fromUTF8? ⟨content.toArray⟩ with
  | some text => return (text, rest)
  | none => throw .invalid

/-- Read a field of a kind. -/
def read (kind : Kind) (length : Nat) (entry : Entry) (bytes : List UInt8) :
    Except Stop (Entry × List UInt8) :=
  match kind with
  | .sizes => readSizes length entry bytes
  | .fileTimes => readFileTimes length entry bytes
  | .encryption => readEncryption length entry bytes
  | .timestamps => readTimestamps length entry bytes
  | .comment => do
    let (comment, rest) ← readText length entry.comment.toUTF8.toList entry bytes
    return ({ entry with comment }, rest)
  | .name => do
    let (name, rest) ← readText length entry.nameBytes entry bytes
    return ({ entry with name, nameBytes := name.toUTF8.toList }, rest)
  | .other => skip entry length bytes

/-- Read field after field. Every field takes four bytes and more, and so the number of bytes
bounds the rounds. -/
def readAll : Nat → Entry → List UInt8 → Stop
  | 0, entry, _ => .ended entry
  | rounds + 1, entry, bytes =>
    let next := do
      let (kind, rest) ← takeNumber entry 2 bytes
      let (length, rest) ← takeNumber entry 2 rest
      read (.ofNumber kind) length entry rest
    match next with
    | .ok (entry, rest) => readAll rounds entry rest
    | .error stop => stop

end ExtraField

/-- An entry after its extra fields, unless one of them is invalid. -/
def Entry.withFields? (entry : Entry) (bytes : List UInt8) : Option Entry :=
  match ExtraField.readAll (bytes.length + 1) entry bytes with
  | .ended entry => some entry
  | .invalid => none

end ClassAtlas.Archive
