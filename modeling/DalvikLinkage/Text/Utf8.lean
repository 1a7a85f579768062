/-!
# UTF-8

Strict decoding accepts exactly the well-formed byte strings. Lossy decoding puts U+FFFD for every
ill-formed part, where a part is as long as it could still have become a character.
-/
namespace DalvikLinkage.Utf8

/-- What stands at the start of a byte string, and how many bytes after the first belong to it. -/
inductive Head
  | scalar (value extra : Nat)
  | broken (extra : Nat)
  deriving DecidableEq, Repr

/-- A byte that can only stand inside a character. -/
def isContinuation (b : UInt8) : Bool :=
  0x80 ≤ b && b ≤ 0xBF

/-- The second bytes that may follow a first one of a character of three or four bytes. Shorter
forms of the same character, surrogates and values past U+10FFFF are left out here. -/
def mayFollow (lead second : UInt8) : Bool :=
  if lead = 0xE0 then 0xA0 ≤ second && second ≤ 0xBF
  else if lead = 0xED then 0x80 ≤ second && second ≤ 0x9F
  else if lead = 0xF0 then 0x90 ≤ second && second ≤ 0xBF
  else if lead = 0xF4 then 0x80 ≤ second && second ≤ 0x8F
  else isContinuation second

/-- The six bits that a continuation byte contributes. -/
def six (b : UInt8) : Nat :=
  b.toNat - 0x80

/-- Looks at the first byte and as many of the others as it needs. -/
def head (b : UInt8) (tail : List UInt8) : Head :=
  if b < 0x80 then .scalar b.toNat 0
  else if b < 0xC2 then .broken 0
  else if b < 0xE0 then
    match tail with
    | b₂ :: _ =>
      if isContinuation b₂ then .scalar ((b.toNat - 0xC0) * 64 + six b₂) 1 else .broken 0
    | [] => .broken 0
  else if b < 0xF0 then
    match tail with
    | b₂ :: b₃ :: _ =>
      if !mayFollow b b₂ then .broken 0
      else if !isContinuation b₃ then .broken 1
      else .scalar (((b.toNat - 0xE0) * 64 + six b₂) * 64 + six b₃) 2
    | [b₂] => if mayFollow b b₂ then .broken 1 else .broken 0
    | [] => .broken 0
  else if b < 0xF5 then
    match tail with
    | b₂ :: b₃ :: b₄ :: _ =>
      if !mayFollow b b₂ then .broken 0
      else if !isContinuation b₃ then .broken 1
      else if !isContinuation b₄ then .broken 2
      else .scalar ((((b.toNat - 0xF0) * 64 + six b₂) * 64 + six b₃) * 64 + six b₄) 3
    | [b₂, b₃] =>
      if !mayFollow b b₂ then .broken 0
      else if isContinuation b₃ then .broken 2 else .broken 1
    | [b₂] => if mayFollow b b₂ then .broken 1 else .broken 0
    | [] => .broken 0
  else .broken 0

/-- The characters of a well-formed byte string. -/
def decode? : List UInt8 → Option (List Char)
  | [] => some []
  | b :: tail =>
    match head b tail with
    | .scalar value extra => (decode? (tail.drop extra)).map (Char.ofNat value :: ·)
    | .broken _ => none
termination_by bytes => bytes.length
decreasing_by simp only [List.length_drop, List.length_cons]; omega

/-- The characters of any byte string, with U+FFFD where it is ill-formed. -/
def decodeLossy : List UInt8 → List Char
  | [] => []
  | b :: tail =>
    match head b tail with
    | .scalar value extra => Char.ofNat value :: decodeLossy (tail.drop extra)
    | .broken extra => '\uFFFD' :: decodeLossy (tail.drop extra)
termination_by bytes => bytes.length
decreasing_by all_goals simp only [List.length_drop, List.length_cons]; omega

/-- The bytes of one character. -/
def encodeChar (c : Char) : List UInt8 :=
  let n := c.toNat
  if n < 0x80 then [n.toUInt8]
  else if n < 0x800 then [(0xC0 + n / 64).toUInt8, (0x80 + n % 64).toUInt8]
  else if n < 0x10000 then
    [(0xE0 + n / 4096).toUInt8, (0x80 + n / 64 % 64).toUInt8, (0x80 + n % 64).toUInt8]
  else
    [(0xF0 + n / 262144).toUInt8, (0x80 + n / 4096 % 64).toUInt8, (0x80 + n / 64 % 64).toUInt8,
      (0x80 + n % 64).toUInt8]

/-- The bytes of a text. -/
def encode (cs : List Char) : List UInt8 :=
  cs.flatMap encodeChar

end DalvikLinkage.Utf8
