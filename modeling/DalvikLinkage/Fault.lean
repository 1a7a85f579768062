import DalvikLinkage.Bytes
import DalvikLinkage.Path
import DalvikLinkage.Text.Number

/-!
# Faults

What can be wrong with the bytes of an image or of a container, with an index into a symbol table,
or with the try blocks of a method body. A fault has one cause, the innermost problem, and the
structures it was found in, innermost first. `Fault.message` is the text a user sees.
-/
namespace DalvikLinkage

/-- The width of a little-endian number in the file. -/
inductive Width
  | one
  | two
  | four
  deriving DecidableEq, Repr

def Width.bytes : Width → Nat
  | .one => 1
  | .two => 2
  | .four => 4

/-- What a label is to a try block. -/
inductive LabelRole
  | start
  | stop
  | handler
  deriving DecidableEq, Repr

def LabelRole.text : LabelRole → String
  | .start => "try start"
  | .stop => "try end"
  | .handler => "catch handler"

/-- The tables of an image that are addressed by index. -/
inductive Table
  | string
  | type
  | proto
  | field
  | method
  deriving DecidableEq, Repr

def Table.text : Table → String
  | .string => "string"
  | .type => "type"
  | .proto => "proto"
  | .field => "field"
  | .method => "method"

namespace Fault

/-- The innermost problem. -/
inductive Cause
  /-- The bytes end inside a number of that width. -/
  | endOfBytes (width : Width) (offset : Nat)
  /-- Five bytes of a variable-length number all announced another one. -/
  | numberTooLong (offset : Nat)
  /-- Fewer than `length` bytes are left. -/
  | shortBuffer (length offset : Nat)
  | headerCutOff
  | badMagic
  | badEndianTag (tag : UInt32)
  /-- A type names a string that is not in the string table. -/
  | typeWithoutString
  /-- A type names a string whose bytes are no text. -/
  | typeWithRawString (units : UInt32) (bytes : List UInt8)
  | undecodedString
  | indexOutOfRange (table : Table) (index count : Nat)
  /-- The wrapped image does not fit in the file. -/
  | sectionOutOfRange (start stop size : Nat)
  /-- A container lists an entry it does not hand out. -/
  | entryMissing (name : String)
  /-- An instruction without code units. -/
  | emptyInstruction
  /-- A try block's label stands nowhere in the body. -/
  | labelNotPlaced (role : LabelRole) (item : String)
  | emptyTryRange (start stop : Nat)
  /-- The file could not be read. -/
  | unreadableFile (problem : String)
  /-- A problem given as text. -/
  | described (text : String)
  deriving DecidableEq, Repr

def listOfBytes (bytes : List UInt8) : String :=
  "[" ++ Text.join ", " (bytes.map fun b => toString b.toNat) ++ "]"

def Cause.message : Cause → String
  | .endOfBytes width offset =>
    s!"Unexpected end of stream reading u{width.bytes} at index {offset}"
  | .numberTooLong offset => s!"uleb128 longer than 5 bytes ending at index {offset}"
  | .shortBuffer length offset =>
    s!"buffer too short for {length} byte read at index {offset}"
  | .headerCutOff => "Not enough bytes for header"
  | .badMagic => "Invalid magic value"
  | .badEndianTag tag => "Unsupported endian tag 0x" ++ Number.hex 8 tag.toNat
  | .typeWithoutString => "Invalid type description: None"
  | .typeWithRawString units bytes =>
    s!"Invalid type description: Some(Raw({units.toNat}, {listOfBytes bytes}))"
  | .undecodedString => "DexString failed conversion"
  | .indexOutOfRange table index count =>
    s!"{table.text} index {index} out of range ({count} {table.text}s)"
  | .sectionOutOfRange start stop size =>
    s!"odex dex section {start}..{stop} exceeds file size {size}"
  | .entryMissing name => s!"listed entry {name} is missing"
  | .emptyInstruction => "an instruction needs at least one code unit"
  | .labelNotPlaced role item => s!"{role.text} label {item} is not placed"
  | .emptyTryRange start stop => s!"empty try range {start}..{stop}"
  | .unreadableFile problem => s!"io Error: {problem}"
  | .described text => text

/-- A structure that was being read when the problem was met. -/
inductive Context
  | stringId (index : Nat)
  | classDef (index : Nat)
  | tryBlock (index : Nat)
  | entry (name : String)
  | file (path : Path)
  /-- An entry named together with the container it came from. -/
  | provider (name : String) (container : Path)
  | described (text : String)
  deriving DecidableEq, Repr

def Context.text : Context → String
  | .stringId index => s!"string_id_item #{index}"
  | .classDef index => s!"class_def_item #{index}"
  | .tryBlock index => s!"try block #{index}"
  | .entry name => name
  | .file path => path.text
  | .provider name container => s!"{name} in {container.text}"
  | .described text => text

end Fault

/-- A problem with binary data and where it was met, innermost structure first. -/
structure Fault where
  cause : Fault.Cause
  contexts : List Fault.Context := []
  deriving DecidableEq, Repr

namespace Fault

/-- The same problem, seen from one structure further out. -/
def within (f : Fault) (context : Context) : Fault :=
  { f with contexts := f.contexts ++ [context] }

/-- The problem, `for` the innermost structure, `of` each structure around it. -/
def message (f : Fault) : String :=
  match f.contexts with
  | [] => f.cause.message
  | first :: others =>
    others.foldl (fun text c => text ++ " of " ++ c.text)
      (f.cause.message ++ " for " ++ first.text)

end Fault
end DalvikLinkage
