/-!
# Lines of bytes
-/

namespace ClassViewer.Text

/-- The byte that ends a line. -/
def lineEnd : UInt8 := 10

/-- The pieces of some bytes between their line ends; there is always one more piece than line ends.
-/
def byteLines (bytes : ByteArray) : List (List UInt8) :=
  bytes.toList.foldr (fun b acc =>
    if b = lineEnd then [] :: acc
    else match acc with
      | [] => [[b]]
      | line :: rest => (b :: line) :: rest) [[]]

end ClassViewer.Text
