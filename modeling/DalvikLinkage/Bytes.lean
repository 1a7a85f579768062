/-!
# Byte strings

The contents of a file and the slices taken from it. Offsets are natural numbers, so an offset plus
a length never wraps: a sum that runs past the end of the bytes is just out of range.
-/
namespace DalvikLinkage

/-- The contents of a file, or a slice of one. -/
abbrev Bytes := Array UInt8

namespace Bytes

/-- The bytes from `start` up to, not including, `stop`. -/
def slice (bytes : Bytes) (start stop : Nat) : Bytes :=
  bytes.extract start stop

/-- The bytes `expected` stand in `bytes` from `offset` on. -/
def hasAt (bytes : Bytes) (offset : Nat) : List UInt8 → Bool
  | [] => true
  | b :: rest => bytes[offset]? == some b && hasAt bytes (offset + 1) rest

/-- The first offset at or after `offset` that holds a zero byte. -/
def findNul? (bytes : Bytes) (offset : Nat) : Option Nat :=
  if h : offset < bytes.size then
    if bytes[offset] = 0 then some offset else findNul? bytes (offset + 1)
  else none
termination_by bytes.size - offset

/-- The number that two bytes make, least significant first. -/
def ofTwo (a b : UInt8) : UInt16 :=
  (a.toNat + 256 * b.toNat).toUInt16

/-- The number that four bytes make, least significant first. -/
def ofFour (a b c d : UInt8) : UInt32 :=
  (a.toNat + 256 * b.toNat + 65536 * c.toNat + 16777216 * d.toNat).toUInt32

/-- The two bytes at `offset` as a number; none if the bytes end before. -/
def half? (bytes : Bytes) (offset : Nat) : Option UInt16 := do
  return ofTwo (← bytes[offset]?) (← bytes[offset + 1]?)

/-- The four bytes at `offset` as a number; none if the bytes end before. -/
def word? (bytes : Bytes) (offset : Nat) : Option UInt32 := do
  return ofFour (← bytes[offset]?) (← bytes[offset + 1]?) (← bytes[offset + 2]?)
    (← bytes[offset + 3]?)

/-- The four bytes of a number, least significant first. -/
def fourOf (n : UInt32) : List UInt8 :=
  let n := n.toNat
  [n.toUInt8, (n / 256).toUInt8, (n / 65536).toUInt8, (n / 16777216).toUInt8]

end Bytes

/-- The ASCII codes of a text that holds ASCII characters only. -/
def asciiBytes (text : String) : List UInt8 :=
  text.toList.map fun c => c.toNat.toUInt8

/-- An ASCII decimal digit. -/
def isAsciiDigit (b : UInt8) : Bool :=
  48 ≤ b && b ≤ 57

/-- The value of three ASCII digits, the most significant first. -/
def asciiNumber (digits : List UInt8) : Nat :=
  digits.foldl (fun n d => n * 10 + (d.toNat - 48)) 0

end DalvikLinkage
