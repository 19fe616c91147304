import ClassAtlas.Digest.Sha256
import ClassAtlas.Name

/-!
# Where a class came from

An origin is the place of one class file: a file, an entry of an archive, or bytes that
somebody handed over. A source remembers an origin by its address, together with the
name of the source file and a checksum of the bytes.
-/

namespace ClassAtlas

/-- The place of one class file. -/
inductive Origin
  | file (path : String)
  | archiveEntry (archive entry : String)
  | memory (name : String)
  deriving DecidableEq, Repr

namespace Origin

/-- A path as it stands in an address: with forward slashes and a leading one. -/
def addressPath (path : String) : String :=
  let letters := Name.respell '\\' '/' path.toList
  String.ofList (if letters.head? = some '/' then letters else '/' :: letters)

/-- The address of an origin. -/
def uri : Origin → String
  | file path => "file://" ++ addressPath path
  | archiveEntry archive entry => "jar:file://" ++ addressPath archive ++ "!/" ++ entry
  | memory name => "memory:" ++ name

end Origin

/-- The digest of a class file, or why there is none. -/
inductive Checksum
  | digest (bytes : List UInt8)
  | undetermined
  | notSupported
  | disabled
  deriving DecidableEq, Repr

namespace Checksum

/-- Two hexadecimal digits for each byte. -/
def hexText (bytes : List UInt8) : String :=
  String.ofList (bytes.flatMap fun byte =>
    [Nat.digitChar (byte.toNat / 16), Nat.digitChar (byte.toNat % 16)])

/-- The checksum of some bytes, if checksums are wanted at all. -/
def ofBytes (enabled : Bool) (bytes : List UInt8) : Checksum :=
  if enabled then digest (Digest.Sha256.hash bytes) else disabled

/-- The digits of a digest; the other states have none. -/
def hex? : Checksum → Option String
  | digest bytes => some (hexText bytes)
  | _ => none

/-- The text of a checksum. -/
def text : Checksum → String
  | digest bytes => hexText bytes
  | undetermined => "undetermined"
  | notSupported => "not supported"
  | disabled => "disabled"

end Checksum

/-- The provenance of a class. -/
structure Source where
  uri : String
  fileName : Option String
  checksum : Checksum
  deriving DecidableEq, Repr

namespace Source

/-- The source of bytes that were read from an origin. -/
def ofBytes (origin : Origin) (bytes : List UInt8) (fileName : Option String)
    (checksums : Bool) : Source :=
  { uri := origin.uri, fileName, checksum := .ofBytes checksums bytes }

/-- Two sources count as the same when address and checksum agree; the name of the source
file is only information. -/
def same (left right : Source) : Bool :=
  left.uri = right.uri && left.checksum = right.checksum

/-- The text of a source. -/
def text (source : Source) : String :=
  source.uri ++ " [checksum='" ++ source.checksum.text ++ "']"

end Source

end ClassAtlas
