import DalvikLinkage.Bytes

/-!
# Records of an ELF file

An ELF file is of 32 or 64 bits and of either byte order; its first bytes say which. A record is
read as the list of its fields, given their widths.
-/
namespace DalvikLinkage.Elf

/-- The class and byte order of a file. -/
structure Format where
  is64 : Bool
  bigEndian : Bool
  deriving DecidableEq, Repr

/-- The number that `bytes` make, the most significant one first. -/
def numberOf (bytes : List UInt8) : Nat :=
  bytes.foldl (fun n b => n * 256 + b.toNat) 0

namespace Format

/-- The width of an address. -/
def word (f : Format) : Nat :=
  if f.is64 then 8 else 4

/-- The number of `width` bytes at an offset. -/
def number? (f : Format) (bytes : Bytes) (offset width : Nat) : Option Nat :=
  if bytes.size < offset + width then none
  else
    let field := (bytes.slice offset (offset + width)).toList
    some (numberOf (if f.bigEndian then field else field.reverse))

/-- The fields with the given widths from an offset on. -/
def fields? (f : Format) (bytes : Bytes) (offset : Nat) : List Nat → Option (List Nat)
  | [] => some []
  | width :: rest => do
    let n ← f.number? bytes offset width
    return n :: (← f.fields? bytes (offset + width) rest)

/-- The format that the first bytes of a file announce. -/
def ofBytes? (bytes : Bytes) : Option Format :=
  if !bytes.hasAt 0 [0x7f, 0x45, 0x4c, 0x46] then none
  else match bytes[4]?, bytes[5]? with
    | some (kind : UInt8), some (order : UInt8) =>
      if (kind = 1 ∨ kind = 2) ∧ (order = 1 ∨ order = 2) then
        some { is64 := kind == 2, bigEndian := order == 2 }
      else none
    | _, _ => none

end Format

/-! ## Records -/

/-- A part of the file that is mapped to memory, or a table that the loader looks for. -/
structure Segment where
  kind : Nat
  offset : Nat
  address : Nat
  fileSize : Nat
  memorySize : Nat
  deriving DecidableEq, Repr

structure Section where
  kind : Nat
  address : Nat
  offset : Nat
  size : Nat
  link : Nat
  entrySize : Nat
  deriving DecidableEq, Repr

/-- A symbol; its name is an offset into a table of strings. -/
structure Symbol where
  name : Nat
  value : Nat
  size : Nat
  deriving DecidableEq, Repr

/-- The widths of the fields and the length of a segment's record. -/
def segmentLength (f : Format) : Nat :=
  if f.is64 then 56 else 32

def segment? (f : Format) (bytes : Bytes) (offset : Nat) : Option Segment := do
  if f.is64 then
    match ← f.fields? bytes offset [4, 4, 8, 8, 8, 8, 8, 8] with
    | [kind, _, offset, address, _, fileSize, memorySize, _] =>
      return { kind, offset, address, fileSize, memorySize }
    | _ => none
  else
    match ← f.fields? bytes offset [4, 4, 4, 4, 4, 4, 4, 4] with
    | [kind, offset, address, _, fileSize, memorySize, _, _] =>
      return { kind, offset, address, fileSize, memorySize }
    | _ => none

def sectionLength (f : Format) : Nat :=
  if f.is64 then 64 else 40

def section? (f : Format) (bytes : Bytes) (offset : Nat) : Option Section := do
  let w := f.word
  match ← f.fields? bytes offset [4, 4, w, w, w, w, 4, 4, w, w] with
  | [_, kind, _, address, offset, size, link, _, _, entrySize] =>
    return { kind, address, offset, size, link, entrySize }
  | _ => none

def symbolLength (f : Format) : Nat :=
  if f.is64 then 24 else 16

def symbol? (f : Format) (bytes : Bytes) (offset : Nat) : Option Symbol := do
  if f.is64 then
    match ← f.fields? bytes offset [4, 1, 1, 2, 8, 8] with
    | [name, _, _, _, value, size] => return { name, value, size }
    | _ => none
  else
    match ← f.fields? bytes offset [4, 4, 4, 1, 1, 2] with
    | [name, value, size, _, _, _] => return { name, value, size }
    | _ => none

/-- `count` records of one length from an offset on. -/
def records? {α : Type} (record? : Nat → Option α) (length offset : Nat) :
    (count : Nat) → Option (List α)
  | 0 => some []
  | count + 1 => do
    let first ← record? offset
    return first :: (← records? record? length (offset + length) count)

end DalvikLinkage.Elf
