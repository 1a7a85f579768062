import DalvikLinkage.Bytes.Reader

/-!
# The header of an image

An image starts with `dex`, a line feed, three digits that are its version, and a zero byte. The
header is 112 bytes long and says where the tables of the image are and how long they are. Only
little-endian images are read.
-/
namespace DalvikLinkage

/-- An image's magic stands at `offset`. -/
def isImageAt (bytes : Bytes) (offset : Nat) : Bool :=
  bytes.hasAt offset [0x64, 0x65, 0x78, 0x0a] &&
    ((bytes[offset + 4]?.map isAsciiDigit).getD false) &&
    ((bytes[offset + 5]?.map isAsciiDigit).getD false) &&
    ((bytes[offset + 6]?.map isAsciiDigit).getD false) &&
    bytes[offset + 7]? == some 0

/-- Only eight bytes decide whether a magic stands there. -/
theorem isImageAt_congr {bytes bytes' : Bytes} {offset offset' : Nat}
    (h : ∀ i < 8, bytes[offset + i]? = bytes'[offset' + i]?) :
    isImageAt bytes offset = isImageAt bytes' offset' := by
  have hfirst : bytes[offset]? = bytes'[offset']? := h 0 (by decide)
  simp (disch := decide) only [isImageAt, Bytes.hasAt, Nat.add_assoc, Nat.reduceAdd, hfirst, h]

/-- The bytes start with an image's magic. -/
def isImage (bytes : Bytes) : Bool :=
  isImageAt bytes 0

/-- Where a part of the image is, and how long it is: in entries for a table, in bytes for data. -/
structure Extent where
  size : UInt32
  offset : UInt32
  deriving DecidableEq, Repr, Inhabited

structure Header where
  magic : List UInt8
  checksum : UInt32
  signature : List UInt8
  fileSize : UInt32
  headerSize : UInt32
  endianTag : UInt32
  link : Extent
  mapOffset : UInt32
  strings : Extent
  types : Extent
  protos : Extent
  fields : Extent
  methods : Extent
  classes : Extent
  data : Extent
  deriving DecidableEq, Repr

namespace Extent

def read : Reader Extent := do
  let size ← Reader.u4
  let offset ← Reader.u4
  return { size, offset }

end Extent

namespace Header

/-- The length of a header. -/
def length : Nat := 0x70

/-- The tag of a little-endian image. -/
def littleEndian : UInt32 := 0x12345678

/-- Refuses bytes that are too short for a header or do not start with an image's magic. -/
def expectMagic : Reader Unit := fun bytes offset =>
  if bytes.size < offset + length then .error { cause := .headerCutOff }
  else if !isImageAt bytes offset then .error { cause := .badMagic }
  else .ok ((), offset)

/-- Reads a header. -/
def read : Reader Header := do
  expectMagic
  let magic ← Reader.take 8
  let checksum ← Reader.u4
  let signature ← Reader.take 20
  let fileSize ← Reader.u4
  let headerSize ← Reader.u4
  let endianTag ← Reader.u4
  let link ← Extent.read
  let mapOffset ← Reader.u4
  let strings ← Extent.read
  let types ← Extent.read
  let protos ← Extent.read
  let fields ← Extent.read
  let methods ← Extent.read
  let classes ← Extent.read
  let data ← Extent.read
  if endianTag != littleEndian then Reader.fail (.badEndianTag endianTag)
  else
    return {
      magic := magic.toList, checksum, signature := signature.toList, fileSize, headerSize,
      endianTag, link, mapOffset, strings, types, protos, fields, methods, classes, data }

/-- The version that the magic names, such as 35 or 39. -/
def version (h : Header) : Nat :=
  asciiNumber ((h.magic.drop 4).take 3)

end Header
end DalvikLinkage
