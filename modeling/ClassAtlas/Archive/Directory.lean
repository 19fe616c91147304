import ClassAtlas.Archive.Number

/-!
# Directories of archives

An archive ends with a record that says where its directory stands and how many entries it has.
Where a number is too large for the record, a locator before it leads to a wide record with long
numbers. Anything may stand before the archive, so all places that are stated are behind the true
ones by one distance, the shift.
-/

namespace ClassAtlas.Archive

/-- The mark of the record at the end. -/
def endMark : Nat := 0x06054b50

/-- The mark of a locator. -/
def locatorMark : Nat := 0x07064b50

/-- The mark of a wide record. -/
def wideMark : Nat := 0x06064b50

/-- The mark of an entry of the directory. -/
def directoryMark : Nat := 0x02014b50

/-- Where the directory of an archive stands, how many entries it has, and how far its entries
stand behind their stated places. -/
structure Directory where
  start : Nat
  shift : Nat
  count : Nat
  deriving DecidableEq, Repr

/-- What the record at the end says. -/
structure EndRecord where
  disk : Nat
  directoryDisk : Nat
  count : Nat
  total : Nat
  directory : Nat
  deriving DecidableEq, Repr

/-- What a locator says of the wide record. -/
structure Locator where
  directoryDisk : Nat
  place : Nat
  disks : Nat
  deriving DecidableEq, Repr

/-- What a wide record says. -/
structure WideRecord where
  size : Nat
  madeBy : Nat
  needed : Nat
  disk : Nat
  directoryDisk : Nat
  count : Nat
  total : Nat
  directory : Nat
  deriving DecidableEq, Repr

/-- Read the record at the end. The comment after it has to fit the file. -/
def EndRecord.read? (bytes : Array UInt8) (place : Nat) : Option EndRecord := do
  if !markedAt bytes endMark place then failure
  let disk ← number? bytes (place + 4) 2
  let directoryDisk ← number? bytes (place + 6) 2
  let count ← number? bytes (place + 8) 2
  let total ← number? bytes (place + 10) 2
  let directory ← number? bytes (place + 16) 4
  let comment ← number? bytes (place + 20) 2
  if bytes.size < place + 22 + comment then failure
  return { disk, directoryDisk, count, total, directory }

/-- Read a locator. -/
def Locator.read? (bytes : Array UInt8) (place : Nat) : Option Locator := do
  if !markedAt bytes locatorMark place then failure
  return {
    directoryDisk := ← number? bytes (place + 4) 4
    place := ← number? bytes (place + 8) 8
    disks := ← number? bytes (place + 16) 4 }

/-- Read a wide record. -/
def WideRecord.read? (bytes : Array UInt8) (place : Nat) : Option WideRecord := do
  if !markedAt bytes wideMark place then failure
  return {
    size := ← number? bytes (place + 4) 8
    madeBy := ← number? bytes (place + 12) 2
    needed := ← number? bytes (place + 14) 2
    disk := ← number? bytes (place + 16) 4
    directoryDisk := ← number? bytes (place + 20) 4
    count := ← number? bytes (place + 24) 8
    total := ← number? bytes (place + 32) 8
    directory := ← number? bytes (place + 48) 8 }

/-- Whether some number may be too large for the record. -/
def EndRecord.mayBeWide (record : EndRecord) : Bool :=
  record.total = 0xffff || record.directory = 0xffffffff

/-- Whether a wide record reaches up to its locator and agrees with it, and the entries of the
directory fit before the record. -/
def WideRecord.agrees (record : WideRecord) (place : Nat) (locator : Locator)
    (locatorPlace : Nat) : Bool :=
  44 ≤ record.size && place + record.size + 12 = locatorPlace &&
    record.directoryDisk = locator.directoryDisk &&
    record.total * 46 + record.directory ≤ place

/-- The directory that a record at the end describes: it begins at the first mark from its stated
place on. A directory without entries ends at the record. -/
def EndRecord.directory? (record : EndRecord) (bytes : Array UInt8) (place : Nat) :
    Option Directory := do
  if record.disk ≠ record.directoryDisk then failure
  let before := place - record.directory
  if record.total = 0 then
    return { start := record.directory + before, shift := before, count := record.count }
  let start ← (List.range' record.directory before).find? (markedAt bytes directoryMark)
  return { start, shift := start - record.directory, count := record.count }

/-- The directory that a locator leads to, by the first wide record from its stated place on that
agrees with the locator. -/
def Locator.directory? (locator : Locator) (bytes : Array UInt8) (locatorPlace : Nat) :
    Option Directory := do
  if 1 < locator.disks then failure
  let (place, record) ← (List.range' locator.place (locatorPlace - locator.place)).findSome?
    fun place => do
      let record ← WideRecord.read? bytes place
      if record.agrees place locator locatorPlace then return (place, record) else failure
  if record.total < record.count ∨ record.madeBy < record.needed then failure
  if record.disk ≠ record.directoryDisk then failure
  let shift := place - locator.place
  return { start := record.directory + shift, shift, count := record.total }

/-- The directory that a record at a place leads to. The locator stands right before the record. -/
def directoryAt? (bytes : Array UInt8) (place : Nat) : Option Directory := do
  let record ← EndRecord.read? bytes place
  let locator? :=
    if record.mayBeWide ∧ 20 ≤ place then Locator.read? bytes (place - 20) else none
  match locator? with
  | some locator => locator.directory? bytes (place - 20)
  | none => record.directory? bytes place

end ClassAtlas.Archive
