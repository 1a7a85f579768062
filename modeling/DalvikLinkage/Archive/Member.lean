import DalvikLinkage.Archive.Crc32
import DalvikLinkage.Archive.Inflate
import DalvikLinkage.ClassPath.Error

/-!
# Members of an archive

A member as the directory describes it, and its contents: the bytes behind its local header, stored
as they are or deflated, checked by their checksum. The local header is not looked at before the
member is read.
-/
namespace DalvikLinkage.Archive

/-- The problem with a file whose data has a flaw. -/
def Inflate.Flaw.problem : Inflate.Flaw → FileProblem
  | .incomplete => .incompleteData
  | .corrupt => .corruptData

/-- A member of an archive, as the directory describes it. -/
structure Member where
  name : String
  /-- The name as its header gives it. -/
  nameBytes : Bytes
  /-- The comment, in UTF-8. -/
  comment : Bytes
  flags : UInt16
  method : UInt16
  checksum : UInt32
  size : Nat
  compressedSize : Nat
  /-- The offset of the local header. -/
  header : Nat
  /-- The data is under the advanced encryption standard. -/
  aes : Bool
  deriving DecidableEq, Repr

namespace Member

def isEncrypted (m : Member) : Bool :=
  m.aes || m.flags &&& 1 != 0

/-- The name is that of a directory. -/
def isDirectory (m : Member) : Bool :=
  m.name.toList.getLast? == some '/' || m.name.toList.getLast? == some '\\'

/-- Where the data behind the local header starts. -/
def dataStart? (m : Member) (bytes : Bytes) : Option Nat := do
  if !bytes.hasAt m.header [0x50, 0x4b, 0x03, 0x04] then none
  else
    let nameLength ← bytes.half? (m.header + 26)
    let extraLength ← bytes.half? (m.header + 28)
    return m.header + 30 + nameLength.toNat + extraLength.toNat

/-- The member's data as it is stored. None if the archive cannot be read on: the member is
encrypted, has no local header, or is packed by a method other than storing and deflating. -/
def packed? (m : Member) (bytes : Bytes) : Option Bytes := do
  if m.isEncrypted || (m.method != 0 && m.method != 8) then none
  else
    let start ← m.dataStart? bytes
    return bytes.slice start (start + m.compressedSize)

/-- The member's contents from its stored data, checked by their checksum. -/
def unpack (m : Member) (data : Bytes) : Except FileProblem Bytes := do
  let contents ← if m.method = 0 then .ok data else (inflate data).mapError (·.problem)
  if crc32 contents = m.checksum then return contents else .error .badChecksum

end Member
end DalvikLinkage.Archive
