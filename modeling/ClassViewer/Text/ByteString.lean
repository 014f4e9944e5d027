/-!
# Byte strings

Byte strings are equal when their bytes are, which is decided by comparing them.
-/

namespace ClassViewer.Text

instance (priority := 2000) byteStringDecidableEq : DecidableEq ByteArray :=
  ByteArray.instDecidableEq

end ClassViewer.Text
