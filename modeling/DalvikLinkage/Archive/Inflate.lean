import DalvikLinkage.Bytes

/-!
# Deflate streams

A stream is a sequence of blocks, stored or compressed; a compressed block codes literal bytes and
repeats of earlier output with two canonical Huffman codes, fixed ones or codes given at the start
of the block. Bits are taken from the low end of each byte.

A stream that breaks a rule, or ends before its last block does, stands for nothing. A rule counts
as broken as soon as the bits up to there show it, whether or not more of them follow. What follows
the last block is not looked at.
-/
namespace DalvikLinkage.Archive.Inflate

/-- Why a stream stands for nothing. -/
inductive Flaw
  /-- The stream ends before its last block does. -/
  | incomplete
  /-- The stream breaks a rule. -/
  | corrupt
  deriving DecidableEq, Repr

/-- The value, or the flaw if there is none. -/
def require {α : Type} (flaw : Flaw) : Option α → Except Flaw α
  | some a => .ok a
  | none => .error flaw

/-- The next bit and the output so far. -/
structure State where
  bit : Nat
  output : Bytes

/-! ## Bits -/

/-- The next bit. -/
def nextBit (input : Bytes) (s : State) : Except Flaw (Nat × State) := do
  let b ← require .incomplete input[s.bit / 8]?
  return ((b.toNat >>> (s.bit % 8)) % 2, { s with bit := s.bit + 1 })

/-- The next `n` bits as a number, the first one least significant. -/
def nextBits (input : Bytes) (s : State) : (n : Nat) → Except Flaw (Nat × State)
  | 0 => .ok (0, s)
  | n + 1 => do
    let (low, s) ← nextBit input s
    let (high, s) ← nextBits input s n
    return (low + 2 * high, s)

/-! ## Huffman codes -/

/-- A canonical code: how many symbols have each length, the symbols in the order of their codes,
and the length of the last code. -/
structure Code where
  counts : Array Nat
  symbols : Array Nat
  longest : Nat

/-- The longest length of a code. -/
def maxLength : Nat := 15

/-- The symbols that have a code, by length and then by value. -/
def symbolsByLength (lengths : List Nat) : List Nat :=
  (List.range maxLength).flatMap fun l =>
    lengths.zipIdx.filterMap fun (length, symbol) => if length = l + 1 then some symbol else none

/-- The code in which symbol `i` has the length `lengths[i]`, zero for none. -/
def Code.ofLengths (lengths : List Nat) : Code where
  counts := ((List.range (maxLength + 1)).map fun l =>
    if l = 0 then 0 else lengths.count l).toArray
  symbols := (symbolsByLength lengths).toArray
  longest := lengths.foldl max 0

/-- The sum of the shares of the code space, in units of the smallest share. -/
def Code.used (c : Code) : Nat :=
  ((List.range maxLength).map fun l =>
    (c.counts[l + 1]?.getD 0) <<< (maxLength - 1 - l)).foldl (· + ·) 0

/-- Every bit string starts with exactly one codeword. -/
def Code.isComplete (c : Code) : Bool :=
  c.used == 1 <<< maxLength

/-- The next symbol, if its code has at least `length` bits and all but the last of those were read.
They make the number `code`; in the first code of that length they make `first`, and the symbol of
that code is at `index`. -/
def nextSymbolFrom (input : Bytes) (c : Code) (s : State) (code first index length : Nat) :
    (left : Nat) → Except Flaw (Nat × State)
  | 0 => .error .corrupt
  | left + 1 => do
    let (b, s) ← nextBit input s
    let code := 2 * code + b
    let first := 2 * first
    let count := c.counts[length]?.getD 0
    if code < first + count then
      let symbol ← require .corrupt c.symbols[index + (code - first)]?
      return (symbol, s)
    else nextSymbolFrom input c s code (first + count) (index + count) (length + 1) left

/-- The next symbol of a code. A code without symbols takes a bit to fail at. -/
def nextSymbol (input : Bytes) (c : Code) (s : State) : Except Flaw (Nat × State) :=
  nextSymbolFrom input c s 0 0 0 1 (max 1 c.longest)

/-! ## Lengths and distances -/

/-- The least length and the number of further bits of each length symbol. -/
def lengthTable : Array (Nat × Nat) :=
  #[(3, 0), (4, 0), (5, 0), (6, 0), (7, 0), (8, 0), (9, 0), (10, 0), (11, 1), (13, 1), (15, 1),
    (17, 1), (19, 2), (23, 2), (27, 2), (31, 2), (35, 3), (43, 3), (51, 3), (59, 3), (67, 4),
    (83, 4), (99, 4), (115, 4), (131, 5), (163, 5), (195, 5), (227, 5), (258, 0)]

/-- The least distance and the number of further bits of each distance symbol. -/
def distanceTable : Array (Nat × Nat) :=
  #[(1, 0), (2, 0), (3, 0), (4, 0), (5, 1), (7, 1), (9, 2), (13, 2), (17, 3), (25, 3), (33, 4),
    (49, 4), (65, 5), (97, 5), (129, 6), (193, 6), (257, 7), (385, 7), (513, 8), (769, 8),
    (1025, 9), (1537, 9), (2049, 10), (3073, 10), (4097, 11), (6145, 11), (8193, 12), (12289, 12),
    (16385, 13), (24577, 13)]

/-- A length or distance from its symbol's entry in a table. -/
def entryValue (input : Bytes) (table : Array (Nat × Nat)) (s : State) (symbol : Nat) :
    Except Flaw (Nat × State) := do
  let (least, extra) ← require .corrupt table[symbol]?
  let (more, s) ← nextBits input s extra
  return (least + more, s)

/-- Repeats what was put out `distance` bytes ago. Before the start of the output there are zeros.
-/
def copy (output : Bytes) (distance : Nat) : (length : Nat) → Bytes
  | 0 => output
  | length + 1 =>
    let b := if distance ≤ output.size then output[output.size - distance]?.getD 0 else 0
    copy (output.push b) distance length

/-! ## Blocks -/

/-- The symbols of a compressed block up to its end; each takes at least one bit. -/
def compressed (input : Bytes) (literals distances : Code) (s : State) :
    (fuel : Nat) → Except Flaw State
  | 0 => .error .incomplete
  | fuel + 1 => do
    let (sym, s) ← nextSymbol input literals s
    if sym < 256 then
      compressed input literals distances { s with output := s.output.push sym.toUInt8 } fuel
    else if sym = 256 then return s
    else
      let (length, s) ← entryValue input lengthTable s (sym - 257)
      let (distanceSymbol, s) ← nextSymbol input distances s
      let (distance, s) ← entryValue input distanceTable s distanceSymbol
      compressed input literals distances
        { s with output := copy s.output distance length } fuel

/-- The lengths of the fixed literal code. -/
def fixedLengths : List Nat :=
  List.replicate 144 8 ++ List.replicate 112 9 ++ List.replicate 24 7 ++ List.replicate 8 8

def fixedLiterals : Code := Code.ofLengths fixedLengths

def fixedDistances : Code := Code.ofLengths (List.replicate 32 5)

/-- The order in which the lengths of the code for code lengths are given. -/
def lengthOrder : List Nat :=
  [16, 17, 18, 0, 8, 7, 9, 6, 10, 5, 11, 4, 12, 3, 13, 2, 14, 1, 15]

/-- Numbers of three bits. -/
def threeBits (input : Bytes) (s : State) : (count : Nat) → Except Flaw (List Nat × State)
  | 0 => .ok ([], s)
  | count + 1 => do
    let (n, s) ← nextBits input s 3
    let (rest, s) ← threeBits input s count
    return (n :: rest, s)

/-- What a symbol of the code for code lengths repeats after the lengths so far, the last one first:
the least number of times, the number of further bits of that number, and the length. -/
def repeat? (lengths : List Nat) (symbol : Nat) : Option (Nat × Nat × Nat) :=
  match symbol, lengths with
  | 16, [] => none
  | 16, previous :: _ => some (3, 2, previous)
  | 17, _ => some (3, 3, 0)
  | _, _ => some (11, 7, 0)

/-- Code lengths, the last one first, until there are `total`; each step adds at least one. -/
def codeLengths (input : Bytes) (code : Code) (total : Nat) (s : State) (lengths : List Nat) :
    (fuel : Nat) → Except Flaw (List Nat × State)
  | 0 => .error .incomplete
  | fuel + 1 =>
    if total < lengths.length then .error .corrupt
    else if lengths.length = total then .ok (lengths, s)
    else do
      let (sym, s) ← nextSymbol input code s
      if sym < 16 then codeLengths input code total s (sym :: lengths) fuel
      else
        let (least, extra, repeated) ← require .corrupt (repeat? lengths sym)
        let (more, s) ← nextBits input s extra
        codeLengths input code total s (List.replicate (least + more) repeated ++ lengths) fuel

/-- A code may leave bit strings unused only if it has no symbol, or one symbol of one bit. -/
def Code.isUsable (c : Code) : Bool :=
  c.isComplete || c.symbols.size == 0 || (c.symbols.size == 1 && c.counts[1]?.getD 0 == 1)

/-- The codes given at the start of a block. -/
def dynamicCodes (input : Bytes) (s : State) : Except Flaw ((Code × Code) × State) := do
  let (literalCount, s) ← nextBits input s 5
  let (distanceCount, s) ← nextBits input s 5
  let (lengthCount, s) ← nextBits input s 4
  let literalCount := literalCount + 257
  let distanceCount := distanceCount + 1
  if 286 < literalCount || 30 < distanceCount then .error .corrupt
  else
    let (given, s) ← threeBits input s (lengthCount + 4)
    let placed := lengthOrder.zip given
    let lengthCode := Code.ofLengths
      ((List.range 19).map fun symbol => (placed.lookup symbol).getD 0)
    if !lengthCode.isComplete then .error .corrupt
    else
      let total := literalCount + distanceCount
      let (reversed, s) ← codeLengths input lengthCode total s [] (total + 1)
      let lengths := reversed.reverse
      let literals := Code.ofLengths (lengths.take literalCount)
      let distances := Code.ofLengths (lengths.drop literalCount)
      if literals.isUsable && distances.isUsable then return ((literals, distances), s)
      else .error .corrupt

/-- A stored block: it starts at a byte, with its length and the length's complement. -/
def stored (input : Bytes) (s : State) : Except Flaw State := do
  let start := (s.bit + 7) / 8
  let length ← require .incomplete (input.half? start)
  let complement ← require .incomplete (input.half? (start + 2))
  let stop := start + 4 + length.toNat
  if length ^^^ complement != 0xFFFF then .error .corrupt
  else if input.size < stop then .error .incomplete
  else return { bit := 8 * stop, output := s.output ++ input.slice (start + 4) stop }

/-- A block of a kind. -/
def block (input : Bytes) (s : State) (kind : Nat) : Except Flaw State :=
  match kind with
  | 0 => stored input s
  | 1 => compressed input fixedLiterals fixedDistances s (8 * input.size + 1)
  | 2 => do
    let ((literals, distances), s) ← dynamicCodes input s
    compressed input literals distances s (8 * input.size + 1)
  | _ => .error .corrupt

/-- The blocks up to the last one; each takes at least three bits. -/
def blocks (input : Bytes) (s : State) : (fuel : Nat) → Except Flaw State
  | 0 => .error .incomplete
  | fuel + 1 => do
    let (last, s) ← nextBit input s
    let (kind, s) ← nextBits input s 2
    let s ← block input s kind
    if last = 1 then return s else blocks input s fuel

end Inflate

/-- The bytes that a deflate stream stands for. -/
def inflate (input : Bytes) : Except Inflate.Flaw Bytes :=
  (Inflate.blocks input ⟨0, #[]⟩ (8 * input.size + 1)).map (·.output)

end DalvikLinkage.Archive
