import ClassAtlas.Archive.RepairedUtf8

/-!
# Names in archives

The name and the comment of an entry are stored in UTF-8 where a flag says so, and otherwise in
code page 437, which agrees with ASCII below 128.
-/

namespace ClassAtlas.Archive

/-- The characters of code page 437 from 128 on. -/
def upperHalf : Array Char :=
  ("ÇüéâäàåçêëèïîìÄÅÉæÆôöòûùÿÖÜ¢£¥₧ƒ" ++
    "áíóúñÑªº¿⌐¬½¼¡«»░▒▓│┤╡╢╖╕╣║╗╝╜╛┐" ++
    "└┴┬├─┼╞╟╚╔╩╦╠═╬╧╨╤╥╙╘╒╓╫╪┘┌█▄▌▐▀" ++
    "αßΓπΣσµτΦΘΩδ∞φε∩≡±≥≤⌠⌡÷≈°∙·√ⁿ²■\xa0").toList.toArray

/-- The character of a byte in code page 437. -/
def codepageChar (byte : UInt8) : Char :=
  if byte.toNat < 128 then Char.ofNat byte.toNat
  else upperHalf.getD (byte.toNat - 128) ' '

/-- The text of bytes in code page 437. -/
def codepageText (bytes : List UInt8) : String := String.ofList (bytes.map codepageChar)

/-- The text of an entry's name or comment. -/
def entryText (isUtf8 : Bool) (bytes : List UInt8) : String :=
  if isUtf8 then RepairedUtf8.decode bytes else codepageText bytes

end ClassAtlas.Archive
