import ClassViewer.Text.Utf8

/-!
# Texts of bytes

A program that knows nothing of characters sees a text as its bytes. Here such a text is a string
with one character for each byte, so that every function on strings counts and compares bytes.
-/

namespace ClassViewer.Text.Octets

/-- The text with one character for each byte. -/
def ofBytes (bytes : ByteArray) : String :=
  String.ofList (bytes.toList.map fun b => Char.ofNat b.toNat)

/-- The bytes of such a text. -/
def toBytes (s : String) : ByteArray := ⟨(s.toList.map fun c => c.toNat.toUInt8).toArray⟩

/-- The bytes of a text, one character for each. -/
def ofText (s : String) : String := ofBytes s.toUTF8

/-- The text whose bytes they are, with replacement characters where they are not UTF-8. -/
def toText (s : String) : String := Utf8.decodeLossy (toBytes s)

end ClassViewer.Text.Octets
