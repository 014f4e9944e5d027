/-!
# CRC-32

The cyclic redundancy check of archive entries: the reflected polynomial `0xEDB88320`, with the
register inverted before and after.
-/

namespace ClassViewer.Digest

/-- One bit of the division. -/
def crcShift (r : UInt32) : UInt32 :=
  if r &&& 1 = 1 then (r >>> 1) ^^^ 0xEDB88320 else r >>> 1

/-- The register after one byte. -/
def crcByte (r : UInt32) (b : UInt8) : UInt32 :=
  (List.range 8).foldl (fun r _ => crcShift r) (r ^^^ b.toUInt32)

/-- The checksum of a byte string. -/
def crc32 (bytes : ByteArray) : UInt32 :=
  (bytes.foldl crcByte 0xFFFFFFFF) ^^^ 0xFFFFFFFF

end ClassViewer.Digest
