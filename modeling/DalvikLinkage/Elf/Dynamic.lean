import DalvikLinkage.Elf.SymbolTable

/-!
# The dynamic segment

Pairs of a tag and a value, the last pair of a tag counting. Values that are addresses are
translated to offsets by the segments that are loaded. The pairs lead to the dynamic symbols, but do
not say how many there are: that is known from a hash table of the symbols, and from the symbols
that relocations name.
-/
namespace DalvikLinkage.Elf

/-! ## Kinds of segments -/

def loadSegment : Nat := 1
def dynamicSegment : Nat := 2

/-- The offset in the file of an address. -/
def fileOffset? (segments : List Segment) (address : Nat) : Option Nat := do
  let s ← segments.find? fun s =>
    s.kind == loadSegment && s.address ≤ address && address - s.address < s.memorySize
  checkedAdd s.offset (address - s.address)

/-! ## The pairs -/

/-- The pairs of the segment up to the one that ends it. -/
def dynamicEntries? (f : Format) (bytes : Bytes) (offset : Nat) :
    (count : Nat) → Option (List (Nat × Nat))
  | 0 => some []
  | count + 1 => do
    match ← f.fields? bytes offset [f.word, f.word] with
    | [tag, value] =>
      if tag = 0 then return []
      else return (tag, value) :: (← dynamicEntries? f bytes (offset + 2 * f.word) count)
    | _ => none

/-- The segment's pairs and the segments that translate their values. -/
structure Dynamic where
  entries : List (Nat × Nat)
  segments : List Segment

namespace Dynamic

/-- What the first dynamic segment says; nothing if there is no such segment. -/
def ofSegments? (f : Format) (bytes : Bytes) (segments : List Segment) :
    Option (Option Dynamic) := do
  match segments.find? fun s => s.kind == dynamicSegment with
  | none => return none
  | some s =>
    if s.fileSize != 0 && !isInside bytes s.offset s.fileSize then none
    else
      let entries ← dynamicEntries? f bytes s.offset (s.fileSize / (2 * f.word))
      return some { entries, segments }

/-- The value of the last pair with a tag. -/
def value? (d : Dynamic) (tag : Nat) : Option Nat :=
  d.entries.reverse.lookup tag

/-- The number that a tag gives, zero if there is no such tag. -/
def number (d : Dynamic) (tag : Nat) : Nat :=
  (d.value? tag).getD 0

/-- The offset in the file of the address that a tag gives. -/
def offset? (d : Dynamic) (tag : Nat) : Option Nat :=
  (d.value? tag).bind (fileOffset? d.segments)

/-- The same, zero if there is no such tag or the address is not loaded. -/
def offset (d : Dynamic) (tag : Nat) : Nat :=
  (d.offset? tag).getD 0

end Dynamic

/-! ## Relocations -/

/-- The length of a relocation's record. -/
def relocationLength (f : Format) (hasAddend : Bool) : Nat :=
  if hasAddend then 3 * f.word else 2 * f.word

/-- The machine whose relocations of eight bytes name the symbol in the first four. -/
def symbolFirstMachine : Nat := 8

/-- The index of the symbol that a relocation names, from the upper bits of its number; what is
below it is the relocation's kind. Where the symbol comes first and so does the least significant
byte, the lower half of the number is the index. -/
def relocationSymbol? (f : Format) (bytes : Bytes) (machine offset : Nat) : Option Nat := do
  let info ← f.number? bytes (offset + f.word) f.word
  return if !f.is64 then info / 0x100
    else if machine = symbolFirstMachine ∧ !f.bigEndian then info % 0x100000000
    else info / 0x100000000

/-- The symbols that the relocations of a table name. A last record that is not whole does not
count, and a table without a size can be anywhere. -/
def relocationSymbols? (f : Format) (bytes : Bytes) (machine : Nat) (hasAddend : Bool)
    (offset size : Nat) : Option (List Nat) :=
  if size = 0 then some []
  else if !isInside bytes offset size then none
  else records? (relocationSymbol? f bytes machine) (relocationLength f hasAddend) offset
    (size / relocationLength f hasAddend)

/-- The symbols that the relocations of the three tables name: with addends, without, and those of
the procedure linkage, for which a tag says whether they have addends. -/
def Dynamic.relocationSymbols? (d : Dynamic) (f : Format) (bytes : Bytes) (machine : Nat) :
    Option (List Nat) := do
  let long ← Elf.relocationSymbols? f bytes machine true (d.offset 7) (d.number 8)
  let short ← Elf.relocationSymbols? f bytes machine false (d.offset 17) (d.number 18)
  let linkage ←
    Elf.relocationSymbols? f bytes machine (d.number 20 == 7) (d.offset 23) (d.number 2)
  return long ++ short ++ linkage

/-! ## Hash tables -/

/-- The number of symbols by a plain hash table, which has a chain link for each of them. On two
machines it is a number of eight bytes if addresses are. -/
def hashedCount? (f : Format) (bytes : Bytes) (machine offset : Nat) : Option Nat :=
  let width := if f.is64 && (machine == 22 || machine == 41) then 8 else 4
  f.number? bytes (offset + 4) width

/-- The index after the end of a chain of hashes, of which the one at `offset` is that of the symbol
`index`. A hash that is odd ends the chain. -/
def chainEnd? (f : Format) (bytes : Bytes) (offset index : Nat) : Option Nat :=
  if _h : offset + 4 ≤ bytes.size then do
    let hash ← f.number? bytes offset 4
    if hash % 2 = 1 then return index + 1 else chainEnd? f bytes (offset + 4) (index + 1)
  else none
termination_by bytes.size - offset
decreasing_by omega

/-- The number of symbols by a hash table with a filter. Each bucket holds the first symbol of its
chain, and the chains follow one another, so the last symbol ends the chain that starts last. There
are none in the table if that chain starts before the first symbol of the table. -/
def filteredCount? (f : Format) (bytes : Bytes) (offset : Nat) : Option Nat := do
  match ← f.fields? bytes offset [4, 4, 4] with
  | [bucketCount, first, filterLength] =>
    let buckets := offset + 16 + filterLength * f.word
    let chains := buckets + 4 * bucketCount
    if bucketCount = 0 || first = 0 || filterLength = 0 || bytes.size < chains then none
    else
      let starts ← records? (fun place => f.number? bytes place 4) 4 buckets bucketCount
      let last := starts.foldl max 0
      if last < first then return 0
      else chainEnd? f bytes (chains + 4 * (last - first)) last
  | _ => none

/-! ## Dynamic symbols -/

/-- The number of dynamic symbols: that of the hash table, the one with a filter if there is one,
or more if a relocation names a symbol that the hash table does not count. -/
def Dynamic.symbolCount? (d : Dynamic) (f : Format) (bytes : Bytes) (machine : Nat) :
    Option Nat := do
  let named ← d.relocationSymbols? f bytes machine
  let counted ← (match d.offset? 0x6ffffef5, d.offset? 4 with
    | some offset, _ => filteredCount? f bytes offset
    | none, some offset => hashedCount? f bytes machine offset
    | none, none => some 0)
  let last := named.foldl max 0
  return if last = 0 then counted else max counted (last + 1)

/-- The symbols that the dynamic segment leads to. -/
def dynamicSymbols? (f : Format) (bytes : Bytes) (machine : Nat) (segments : List Segment) :
    Option (List NamedSymbol) := do
  match ← Dynamic.ofSegments? f bytes segments with
  | none => return []
  | some d =>
    let strings ← stringTable? bytes (d.offset 5) (d.number 10)
    let count ← d.symbolCount? f bytes machine
    let symbols ← symbolTable? f bytes (d.offset 6) count
    return withNames strings symbols

end DalvikLinkage.Elf
