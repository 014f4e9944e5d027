/-!
# Hexadecimal text

Bytes as lower-case hexadecimal digits, two to a byte.
-/

namespace ClassViewer.Text

/-- The lower-case hexadecimal digit of a number below sixteen. -/
def hexDigit (n : Nat) : Char :=
  if n < 10 then Char.ofNat ('0'.toNat + n) else Char.ofNat ('a'.toNat + (n - 10))

/-- The digits of all bytes in order. -/
def toHex (bytes : ByteArray) : String :=
  bytes.foldl (fun s b => (s.push (hexDigit (b.toNat / 16))).push (hexDigit (b.toNat % 16))) ""

end ClassViewer.Text
