import DalvikLinkage.Bytes

/-!
# Cyclic redundancy check

The checksum of archive entries: the remainder modulo the reflected polynomial `0xEDB88320`, with
all bits inverted before and after.
-/
namespace DalvikLinkage.Archive

/-- Divides by the polynomial once. -/
def crcStep (c : UInt32) : UInt32 :=
  if c &&& 1 = 1 then (c >>> 1) ^^^ 0xEDB88320 else c >>> 1

/-- Takes one byte in. -/
def crcByte (c : UInt32) (b : UInt8) : UInt32 :=
  let c := c ^^^ b.toUInt32
  crcStep (crcStep (crcStep (crcStep (crcStep (crcStep (crcStep (crcStep c)))))))

/-- The checksum of a byte string. -/
def crc32 (bytes : Bytes) : UInt32 :=
  (bytes.foldl crcByte 0xFFFFFFFF) ^^^ 0xFFFFFFFF

end DalvikLinkage.Archive
