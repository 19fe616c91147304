import ClassAtlas.Archive.Codepage
import ClassAtlas.Archive.Directory
import ClassAtlas.Archive.ExtraField
import ClassAtlas.Archive.Inflate

/-!
# Archives

An archive is opened by its directory, which lists the entries. The directory is sought from the
end of the file backwards, and the first one that can be read as a whole counts. The header before
the data of an entry is looked at only when the entry is opened. An entry is stored as it is or
compressed, and its check value has to agree with its bytes.

Of two entries with one name the later counts, in the place of the earlier.
-/

namespace ClassAtlas.Archive

/-- An opened archive. -/
structure Opened where
  bytes : Array UInt8
  entries : List Entry

/-- Why the bytes of an entry cannot be had. -/
inductive EntryFault
  | unsupported
  | compression (fault : StreamFault)
  | wrongCheck
  deriving DecidableEq, Repr

/-- The wording of an entry's fault. -/
def EntryFault.message : EntryFault → String
  | unsupported => "unsupported Zip archive"
  | compression fault => fault.message
  | wrongCheck => "Invalid checksum"

/-- The mark before the data of an entry. -/
def dataMark : Nat := 0x04034b50

/-- The method that only a field about encryption explains. -/
def sealedMethod : Nat := 99

/-- Read an entry of the directory, and where the next one stands. The header of an entry stands
before the directory. -/
def entryAt? (bytes : Array UInt8) (directory : Directory) (place : Nat) :
    Option (Entry × Nat) := do
  if !markedAt bytes directoryMark place then failure
  let madeBy ← number? bytes (place + 4) 2
  let flags ← number? bytes (place + 8) 2
  let method ← number? bytes (place + 10) 2
  let check ← number? bytes (place + 16) 4
  let size ← number? bytes (place + 20) 4
  let fullSize ← number? bytes (place + 24) 4
  let nameSize ← number? bytes (place + 28) 2
  let extraSize ← number? bytes (place + 30) 2
  let commentSize ← number? bytes (place + 32) 2
  let attributes ← number? bytes (place + 38) 4
  let header ← number? bytes (place + 42) 4
  let extraStart := place + 46 + nameSize
  let commentStart := extraStart + extraSize
  let next := commentStart + commentSize
  if bytes.size < next then failure
  let nameBytes := (bytes.extract (place + 46) extraStart).toList
  let isUtf8 := flags.testBit 11
  let listed : Entry :=
    { name := entryText isUtf8 nameBytes, nameBytes
      comment := entryText isUtf8 (bytes.extract commentStart next).toList
      flags, method, check, size, fullSize, header, madeBy, attributes }
  let entry ← listed.withFields? (bytes.extract extraStart commentStart).toList
  if entry.method = sealedMethod ∧ !entry.isSealed then failure
  let header := entry.header + directory.shift
  if directory.start ≤ header then failure
  return ({ entry with header }, next)

/-- Read so many entries in a row. -/
def entriesAt? (bytes : Array UInt8) (directory : Directory) : Nat → Nat → Option (List Entry)
  | 0, _ => some []
  | count + 1, place => do
    let (entry, next) ← entryAt? bytes directory place
    return entry :: (← entriesAt? bytes directory count next)

/-- The entries of the directory that a record at a place leads to. -/
def entriesBefore? (bytes : Array UInt8) (place : Nat) : Option (List Entry) := do
  let directory ← directoryAt? bytes place
  entriesAt? bytes directory directory.count directory.start

/-- Take an entry into a list; it replaces one of the same name. -/
def replaceOrAppend (entries : List Entry) (entry : Entry) : List Entry :=
  if entries.any fun other => other.name = entry.name then
    entries.map fun other => if other.name = entry.name then entry else other
  else entries ++ [entry]

namespace Opened

/-- Open an archive. -/
def ofBytes? (content : List UInt8) : Option Opened := do
  let bytes := content.toArray
  let entries ← (List.range (bytes.size - 21)).reverse.findSome? (entriesBefore? bytes)
  return { bytes, entries := entries.foldl replaceOrAppend [] }

/-- The place where the data of an entry begins, behind its header. Only entries that can be read
have one. -/
def dataStart? (archive : Opened) (entry : Entry) : Option Nat := do
  if !entry.isSupported then failure
  if !markedAt archive.bytes dataMark entry.header then failure
  let nameSize ← number? archive.bytes (entry.header + 26) 2
  let extraSize ← number? archive.bytes (entry.header + 28) 2
  return entry.header + 30 + nameSize + extraSize

/-- Whether the check value of an entry is that of some bytes. -/
def checked (entry : Entry) (bytes : List UInt8) : Except EntryFault (List UInt8) :=
  if (crc32 bytes).toNat = entry.check then .ok bytes else .error .wrongCheck

/-- The bytes of an entry. Data that reaches beyond the file ends with it. -/
def read (archive : Opened) (entry : Entry) : Except EntryFault (List UInt8) :=
  match archive.dataStart? entry with
  | none => .error .unsupported
  | some start => do
    let data := (archive.bytes.extract start (start + entry.size)).toList
    checked entry (← if entry.method = 0 then pure data else (inflate data).mapError .compression)

/-- The entry with a name. -/
def find? (archive : Opened) (name : String) : Option Entry :=
  archive.entries.find? fun entry => entry.name = name

end Opened

end ClassAtlas.Archive
