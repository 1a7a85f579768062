import DalvikLinkage.Elf.Dynamic
import DalvikLinkage.Elf.Sections

/-!
# ELF files

The header of a file leads to its segments and its sections, and they lead to the dynamic and the
static symbols. A file is refused as a whole if any of its tables is unsound.
-/
namespace DalvikLinkage.Elf

structure File where
  segments : List Segment
  staticSymbols : List NamedSymbol
  dynamicSymbols : List NamedSymbol
  deriving DecidableEq, Repr

/-! ## The file -/

/-- The fields of the header that matter here. -/
structure FileHeader where
  machine : Nat
  segmentsOffset : Nat
  sectionsOffset : Nat
  segmentCount : Nat
  sectionCount : Nat
  namesSection : Nat

def header? (f : Format) (bytes : Bytes) : Option FileHeader := do
  let w := f.word
  match ← f.fields? bytes 16 [2, 2, 4, w, w, w, 4, 2, 2, 2, 2, 2, 2] with
  | [_, machine, _, _, segmentsOffset, sectionsOffset, _, _, _, segmentCount, _, sectionCount,
      namesSection] =>
    return { machine, segmentsOffset, sectionsOffset, segmentCount, sectionCount, namesSection }
  | _ => none

/-- The segments and symbols of a file; none if it is no sound ELF file. -/
def File.ofBytes? (bytes : Bytes) : Option File := do
  let f ← Format.ofBytes? bytes
  let h ← header? f bytes
  if bytes.size / segmentLength f < h.segmentCount then none
  else
    let segments ← records? (segment? f bytes) (segmentLength f) h.segmentsOffset h.segmentCount
    let sections ← sections? f bytes h.sectionsOffset h.sectionCount
    let _names ← linkedStrings? bytes sections h.namesSection
    let staticSymbols ← staticSymbols? f bytes sections
    let dynamicSymbols ← dynamicSymbols? f bytes h.machine segments
    if areSound sections bytes then return { segments, staticSymbols, dynamicSymbols } else none

/-! ## The range of a symbol -/

/-- The first symbol with that name, dynamic symbols first. -/
def File.find? (file : File) (name : List UInt8) : Option NamedSymbol :=
  (file.dynamicSymbols ++ file.staticSymbols).find? fun s => s.name == name

/-- The offset in the file of an address that the loaded segments take from the file; the address
itself if none of them does. None if a segment's numbers leave 64 bits before that. -/
def dataOffset? (address : Nat) : List Segment → Option Nat
  | [] => some address
  | s :: rest =>
    if s.kind != loadSegment then dataOffset? address rest
    else match checkedAdd s.address s.fileSize with
      | none => none
      | some stop =>
        if s.address ≤ address ∧ address < stop then checkedAdd (address - s.address) s.offset
        else dataOffset? address rest

/-- The range of the file that a symbol names: from its place to its size further on, or to the end
of the file if it has no size or runs past the end. -/
def File.range? (file : File) (name : List UInt8) (fileLength : Nat) : Option (Nat × Nat) := do
  let s ← file.find? name
  let start ← dataOffset? s.value file.segments
  if fileLength ≤ start then none
  else
    let stop := if s.size = 0 then fileLength else min (start + s.size) fileLength
    return (start, stop)

end DalvikLinkage.Elf
