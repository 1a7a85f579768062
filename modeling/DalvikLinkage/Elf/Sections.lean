import DalvikLinkage.Elf.SymbolTable

/-!
# Sections

The table of sections leads to the static symbols and their names. It need not be there. If it is,
the sections of relocations and of symbol versions have to lie inside the file as well, though their
contents do not matter.
-/
namespace DalvikLinkage.Elf

/-- The sections; none if the file gives no offset for them. A count of zero means that the first
section's size is the count. -/
def sections? (f : Format) (bytes : Bytes) (offset count : Nat) : Option (List Section) := do
  if offset = 0 then return []
  else
    let first ← section? f bytes offset
    let count := if count = 0 then first.size else count
    if bytes.size / sectionLength f < count then none
    else
      return first :: (← records? (section? f bytes) (sectionLength f)
        (offset + sectionLength f) (count - 1))

/-! ## Kinds of sections -/

def symbolSection : Nat := 2
def emptySection : Nat := 8

/-- Relocations, with an addend and without. -/
def relocationSections : List Nat := [4, 9]

/-- The versions of symbols: those of each symbol, those that the file needs and those that it
defines. -/
def versionSections : List Nat := [0x6fffffff, 0x6ffffffe, 0x6ffffffd]

/-! ## Soundness -/

/-- The section's data, if it has any, lies inside the file and its addresses have 64 bits. -/
def Section.fits (s : Section) (bytes : Bytes) : Bool :=
  s.kind == emptySection || s.size == 0 ||
    (s.offset + s.size ≤ bytes.size && (checkedAdd s.address s.size).isSome)

/-- All sections of relocations are sound, and so is the first section of each kind of versions. -/
def areSound (sections : List Section) (bytes : Bytes) : Bool :=
  (sections.all fun s => !relocationSections.contains s.kind || s.fits bytes) &&
    versionSections.all fun kind =>
      match sections.find? fun s => s.kind == kind with
      | none => true
      | some s => isInside bytes s.offset s.size

/-! ## Static symbols -/

/-- The table of strings that a section index leads to; empty if there is no such section. The index
`0xffff` stands for the index that the first section links to. -/
def linkedStrings? (bytes : Bytes) (sections : List Section) (index : Nat) :
    Option (List UInt8) :=
  let index := if index = 0xffff then ((sections.head?).map (·.link)).getD index else index
  match sections[index]? with
  | none => some []
  | some s => if s.fits bytes then stringTable? bytes s.offset s.size else none

/-- The symbols of the last section of symbols. -/
def staticSymbols? (f : Format) (bytes : Bytes) (sections : List Section) :
    Option (List NamedSymbol) := do
  match sections.reverse.find? fun s => s.kind == symbolSection with
  | none => return []
  | some s =>
    let count := if s.entrySize = 0 then 0 else s.size / s.entrySize
    let symbols ← symbolTable? f bytes s.offset count
    let strings ← linkedStrings? bytes sections s.link
    return withNames strings symbols

end DalvikLinkage.Elf
