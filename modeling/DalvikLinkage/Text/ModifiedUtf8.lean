import DalvikLinkage.Text.Utf8

/-!
# Modified UTF-8

The encoding of string data in an image. It differs from UTF-8 in two places, so that encoded text
never holds a zero byte and no character takes more than three bytes: U+0000 is written in two
bytes, and a character past U+FFFF as a pair of surrogates of three bytes each.
-/
namespace DalvikLinkage.ModifiedUtf8

open Utf8 (isContinuation mayFollow six)

/-- The first half of a surrogate pair: its second byte. -/
def isHighHalf (b : UInt8) : Bool :=
  0xA0 ≤ b && b ≤ 0xAF

/-- The second half of a surrogate pair: its second byte. -/
def isLowHalf (b : UInt8) : Bool :=
  0xB0 ≤ b && b ≤ 0xBF

/-- The value of a surrogate pair, from the second and third bytes of its halves. -/
def pairValue (h₂ h₃ l₂ l₃ : UInt8) : Nat :=
  0x10000 + ((h₂.toNat - 0xA0) * 64 + six h₃) * 1024 + ((l₂.toNat - 0xB0) * 64 + six l₃)

/-- The character at the start of a byte string, and how many bytes after the first belong to it. -/
def head? (b : UInt8) (tail : List UInt8) : Option (Nat × Nat) :=
  if b < 0x80 then some (b.toNat, 0)
  else match tail with
    | [] => none
    | b₂ :: tail₂ =>
      if b = 0xC0 then if b₂ = 0x80 then some (0, 1) else none
      else if b < 0xC2 then none
      else if b < 0xE0 then
        if isContinuation b₂ then some ((b.toNat - 0xC0) * 64 + six b₂, 1) else none
      else if 0xF0 ≤ b then none
      else match tail₂ with
        | [] => none
        | b₃ :: tail₃ =>
          if !isContinuation b₃ then none
          else if mayFollow b b₂ then
            some (((b.toNat - 0xE0) * 64 + six b₂) * 64 + six b₃, 2)
          else if b = 0xED && isHighHalf b₂ then
            match tail₃ with
            | l :: l₂ :: l₃ :: _ =>
              if l = 0xED && isLowHalf l₂ && isContinuation l₃ then
                some (pairValue b₂ b₃ l₂ l₃, 5)
              else none
            | _ => none
          else none

/-- The characters of a byte string in this encoding. -/
def decode? : List UInt8 → Option (List Char)
  | [] => some []
  | b :: tail =>
    match head? b tail with
    | some (value, extra) => (decode? (tail.drop extra)).map (Char.ofNat value :: ·)
    | none => none
termination_by bytes => bytes.length
decreasing_by simp only [List.length_drop, List.length_cons]; omega

/-- Three bytes that carry a value of sixteen bits. -/
def encodeThree (n : Nat) : List UInt8 :=
  [(0xE0 + n / 4096).toUInt8, (0x80 + n / 64 % 64).toUInt8, (0x80 + n % 64).toUInt8]

/-- The bytes of one character. -/
def encodeChar (c : Char) : List UInt8 :=
  let n := c.toNat
  if n = 0 then [0xC0, 0x80]
  else if n < 0x80 then [n.toUInt8]
  else if n < 0x800 then [(0xC0 + n / 64).toUInt8, (0x80 + n % 64).toUInt8]
  else if n < 0x10000 then encodeThree n
  else
    let m := n - 0x10000
    encodeThree (0xD800 + m / 1024) ++ encodeThree (0xDC00 + m % 1024)

/-- The bytes of a text. -/
def encode (cs : List Char) : List UInt8 :=
  cs.flatMap encodeChar

/-- How many UTF-16 units a text has. -/
def units : List Char → Nat
  | [] => 0
  | c :: rest => (if c.toNat < 0x10000 then 1 else 2) + units rest

end DalvikLinkage.ModifiedUtf8
