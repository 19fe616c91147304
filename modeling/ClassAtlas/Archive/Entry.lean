/-!
# Entries of archives

What the directory of an archive says of one entry: its name, how and where its data is stored,
and what its system recorded of it. The data stands behind a header of its own.
-/

namespace ClassAtlas.Archive

/-- An entry of an archive. A sealed entry needs a password. -/
structure Entry where
  name : String
  nameBytes : List UInt8
  comment : String
  flags : Nat
  method : Nat
  check : Nat
  size : Nat
  fullSize : Nat
  header : Nat
  madeBy : Nat
  attributes : Nat
  isSealed : Bool := false
  deriving DecidableEq, Repr

namespace Entry

/-- Whether an entry stands for a directory. -/
def isDirectory (entry : Entry) : Bool :=
  entry.name.toList.getLast?.any fun letter => letter = '/' || letter = '\\'

/-- Whether an entry is a symbolic link. Only one kind of system records links, by two bits that
have to be set among others. -/
def isLink (entry : Entry) : Bool :=
  entry.madeBy / 256 = 3 && (entry.attributes / 65536) &&& 0xa000 = 0xa000

/-- Whether an entry is a file. -/
def isFile (entry : Entry) : Bool := !entry.isDirectory && !entry.isLink

/-- Whether an entry can be read at all: without a password, stored or compressed. -/
def isSupported (entry : Entry) : Bool :=
  !entry.flags.testBit 0 && !entry.isSealed && (entry.method = 0 || entry.method = 8)

end Entry

end ClassAtlas.Archive
