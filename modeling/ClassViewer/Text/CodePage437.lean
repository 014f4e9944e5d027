/-!
# Code page 437

The character set of archive entry names that do not declare UTF-8: the lower half is ASCII, the
upper half the table below.
-/

namespace ClassViewer.Text

/-- The characters of the bytes `0x80` to `0xFF`, in order. -/
def upperHalf437 : Array Char :=
  ("ÇüéâäàåçêëèïîìÄÅÉæÆôöòûùÿÖÜ¢£¥₧ƒáíóúñÑªº¿⌐¬½¼¡«»░▒▓│┤╡╢╖╕╣║╗╝╜╛┐└┴┬├─┼╞╟╚╔╩╦╠═╬╧╨╤╥╙╘╒╓╫╪┘┌" ++
    "█▄▌▐▀αßΓπΣσµτΦΘΩδ∞φε∩≡±≥≤⌠⌡÷≈°∙·√ⁿ²■\u00a0").toList.toArray

/-- The character of one byte. -/
def char437 (b : UInt8) : Char :=
  if b.toNat < 0x80 then Char.ofNat b.toNat else upperHalf437.getD (b.toNat - 0x80) ' '

/-- The text of bytes in code page 437. -/
def decode437 (bytes : ByteArray) : String :=
  bytes.foldl (fun s b => s.push (char437 b)) ""

end ClassViewer.Text
