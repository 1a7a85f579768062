import DalvikLinkage.Bytes.Reader

/-!
# Numbers of variable length

An unsigned number is written in groups of seven bits, least significant first; the top bit of a
byte says that another one follows. A number of 32 bits takes at most five bytes, and a fifth byte
that announces a sixth is a fault. Bits beyond the thirty-second are dropped.
-/
namespace DalvikLinkage.Uleb128

/-- Another byte follows. -/
def continues (b : UInt8) : Bool :=
  128 ≤ b

/-- The seven bits that a byte contributes. -/
def payload (b : UInt8) : UInt32 :=
  (b &&& 0x7f).toUInt32

/-- Reads a number of at most `limit` bytes. -/
def readWithin : (limit : Nat) → Reader UInt32
  | 0 => fun _ offset => .error { cause := .numberTooLong offset }
  | limit + 1 => do
    let b ← Reader.u1
    if continues b then
      let rest ← readWithin limit
      return payload b + 128 * rest
    else
      return payload b

/-- Reads a number. -/
def read : Reader UInt32 :=
  readWithin 5

/-- The shortest form of a number. -/
def encode (n : Nat) : List UInt8 :=
  if n < 128 then [n.toUInt8]
  else (n % 128 + 128).toUInt8 :: encode (n / 128)

end DalvikLinkage.Uleb128
