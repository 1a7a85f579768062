import DalvikLinkage.Image.ClassData
import DalvikLinkage.Notice

/-!
# The records of an image's tables

Every table but those of strings and types holds records of a fixed size. Some name a list of types
elsewhere in the image by its offset, and a class names its class data so; an offset of zero means
that there is none. Class data that cannot be read does not spoil its class: the record keeps the
fault and a notice says so.
-/
namespace DalvikLinkage

/-- Types by their indices. -/
abbrev TypeList := List UInt16

/-- Reads a counted list of types. -/
def TypeList.read : Reader TypeList := do
  let count ← Reader.u4
  Reader.times count.toNat Reader.u2

/-- The list of types at an offset, empty for the offset zero. -/
def TypeList.readAt (offset : UInt32) : Reader TypeList :=
  if offset = 0 then pure [] else Reader.elsewhere offset.toNat TypeList.read

/-- The value of an optional index: all bits set mean none. -/
def optionalIndex (n : UInt32) : Option UInt32 :=
  if n = 0xffffffff then none else some n

structure ProtoRecord where
  shorty : UInt32
  result : UInt32
  parameters : TypeList
  deriving DecidableEq, Repr

def ProtoRecord.read : Reader ProtoRecord := do
  let shorty ← Reader.u4
  let result ← Reader.u4
  let parametersOffset ← Reader.u4
  let parameters ← TypeList.readAt parametersOffset
  return { shorty, result, parameters }

structure FieldRecord where
  owner : UInt16
  type : UInt16
  name : UInt32
  deriving DecidableEq, Repr

def FieldRecord.read : Reader FieldRecord := do
  let owner ← Reader.u2
  let type ← Reader.u2
  let name ← Reader.u4
  return { owner, type, name }

structure MethodRecord where
  owner : UInt16
  proto : UInt16
  name : UInt32
  deriving DecidableEq, Repr

def MethodRecord.read : Reader MethodRecord := do
  let owner ← Reader.u2
  let proto ← Reader.u2
  let name ← Reader.u4
  return { owner, proto, name }

/-- What became of the class data of a class. -/
inductive ClassDataState
  | absent
  | present (data : ClassData)
  | unreadable (fault : Fault)
  deriving DecidableEq, Repr

namespace ClassDataState

def data? : ClassDataState → Option ClassData
  | present data => some data
  | _ => none

/-- The class data at an offset. -/
def ofOffset (bytes : Bytes) (offset : UInt32) : ClassDataState :=
  if offset = 0 then absent
  else match ClassData.read bytes offset.toNat with
    | .ok (data, _) => present data
    | .error fault => unreadable fault

/-- Looks at class data elsewhere, which never fails. -/
def readAt (offset : UInt32) : Reader ClassDataState := fun bytes here =>
  .ok (ofOffset bytes offset, here)

end ClassDataState

structure ClassRecord where
  type : UInt32
  flags : AccessFlags
  superclass : Option UInt32
  interfaces : TypeList
  sourceFile : Option UInt32
  data : ClassDataState
  deriving DecidableEq, Repr

namespace ClassRecord

/-- The part of the record up to and with its class data. -/
def readFront : Reader ClassRecord := do
  let type ← Reader.u4
  let flags ← Reader.u4
  let superclass ← Reader.u4
  let interfacesOffset ← Reader.u4
  let interfaces ← TypeList.readAt interfacesOffset
  let sourceFile ← Reader.u4
  let _annotations ← Reader.u4
  let dataOffset ← Reader.u4
  let data ← ClassDataState.readAt dataOffset
  return {
    type, flags := ⟨flags⟩, superclass := optionalIndex superclass, interfaces,
    sourceFile := optionalIndex sourceFile, data }

/-- What is to be said about the record. -/
def notices (r : ClassRecord) : List Notice :=
  match r.data with
  | .unreadable fault => [.classDataSkipped r.type fault]
  | _ => []

/-- Reads a record. The last word, the offset of static values, only has to be there; the notices
are given before it is looked for. -/
def read (bytes : Bytes) (offset : Nat) : Logged Fault (ClassRecord × Nat) := do
  let (record, after) ← Logged.of (readFront bytes offset)
  Logged.note record.notices
  let (_staticValues, stop) ← Logged.of (Reader.u4 bytes after)
  return (record, stop)

end ClassRecord
end DalvikLinkage
