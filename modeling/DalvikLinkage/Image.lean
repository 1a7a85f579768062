import DalvikLinkage.Image.Header
import DalvikLinkage.Image.Record
import DalvikLinkage.Image.StringItem
import DalvikLinkage.Symbol.Key

/-!
# Images

The symbol tables of one dex image. The tables are read in a fixed order, each from the offset that
the header gives, and the first fault ends the reading. A type has to name a string that is text;
every other index is looked up when it is needed, and a lookup out of range is a fault of its own.
-/
namespace DalvikLinkage

structure Image where
  header : Header
  strings : Array StringItem
  types : Array UInt32
  protos : Array ProtoRecord
  fields : Array FieldRecord
  methods : Array MethodRecord
  classes : List ClassRecord
  deriving Repr

namespace Image

/-! ## Reading -/

/-- Reads an entry of the string table: the offset of a string item, and the item. -/
def readString (index : Nat) : Reader StringItem := do
  let offset ← Reader.u4
  Reader.elsewhere offset.toNat (StringItem.read.within (.stringId index))

/-- Reads an entry of the type table: the index of the type's descriptor. -/
def readType (strings : Array StringItem) : Reader UInt32 := do
  let index ← Reader.u4
  match strings[index.toNat]? with
  | some (.decoded _) => return index
  | some (.raw units bytes) => Reader.fail (.typeWithRawString units bytes)
  | none => Reader.fail .typeWithoutString

/-- Reads a table of records. -/
def readTable {α : Type} (extent : Extent) (record : Reader α) : Reader (Array α) := do
  Reader.seek extent.offset.toNat
  let records ← Reader.times extent.size.toNat record
  return records.toArray

/-- Reads the table of strings. -/
def readStrings (extent : Extent) : Reader (Array StringItem) := do
  Reader.seek extent.offset.toNat
  let strings ← Reader.forIndices readString 0 extent.size.toNat
  return strings.toArray

/-- Reads everything but the classes. -/
def readTables : Reader Image := do
  let header ← Header.read
  let strings ← readStrings header.strings
  let types ← readTable header.types (readType strings)
  let protos ← readTable header.protos ProtoRecord.read
  let fields ← readTable header.fields FieldRecord.read
  let methods ← readTable header.methods MethodRecord.read
  return { header, strings, types, protos, fields, methods, classes := [] }

/-- Reads `count` classes, the first of which has that index and stands at that offset. -/
def readClasses (bytes : Bytes) (first offset : Nat) :
    (count : Nat) → Logged Fault (List ClassRecord)
  | 0 => pure []
  | count + 1 => do
    let (record, after) ←
      (ClassRecord.read bytes offset).mapError fun fault => fault.within (.classDef first)
    let rest ← readClasses bytes (first + 1) after count
    return record :: rest

/-- The image that the bytes hold. -/
def ofBytes (bytes : Bytes) : Logged Fault Image := do
  let (tables, _) ← Logged.of (readTables bytes 0)
  let extent := tables.header.classes
  let classes ← readClasses bytes 0 extent.offset.toNat extent.size.toNat
  return { tables with classes }

/-! ## Lookups -/

/-- The entry of a table, a fault if there is none. -/
def entry {α : Type} (table : Table) (entries : Array α) (index : Nat) : Except Fault α :=
  match entries[index]? with
  | some a => .ok a
  | none => .error { cause := .indexOutOfRange table index entries.size }

def string (image : Image) (index : Nat) : Except Fault String := do
  (← entry .string image.strings index).text

def typeDescriptor (image : Image) (index : Nat) : Except Fault String := do
  let name ← entry .type image.types index
  image.string name.toNat

def protoDescriptor (image : Image) (index : Nat) : Except Fault String := do
  let proto ← entry .proto image.protos index
  let parameters ← proto.parameters.mapM fun t => image.typeDescriptor t.toNat
  let result ← image.typeDescriptor proto.result.toNat
  return Descriptor.prototype parameters result

def fieldKey (image : Image) (index : Nat) : Except Fault FieldKey := do
  let field ← entry .field image.fields index
  let definingClass ← image.typeDescriptor field.owner.toNat
  let name ← image.string field.name.toNat
  let fieldType ← image.typeDescriptor field.type.toNat
  return { definingClass, name, fieldType }

def methodKey (image : Image) (index : Nat) : Except Fault MethodKey := do
  let method ← entry .method image.methods index
  let definingClass ← image.typeDescriptor method.owner.toNat
  let name ← image.string method.name.toNat
  let prototype ← image.protoDescriptor method.proto.toNat
  return { definingClass, name, prototype }

end Image
end DalvikLinkage
