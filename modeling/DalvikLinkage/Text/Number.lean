/-!
# Numbers in texts

How numbers are written in messages (decimal, padded decimal, hexadecimal) and how a decimal or
hexadecimal number is read: an optional sign, at least one digit, nothing else, and a value that
fits the width asked for.
-/
namespace DalvikLinkage.Number

/-- The hexadecimal digits of `n`, without leading zeros. -/
def hexDigits (n : Nat) : List Char :=
  Nat.toDigits 16 n

/-- `digits` after as many zeros as it takes to be `width` characters. -/
def zeroPad (width : Nat) (digits : List Char) : List Char :=
  List.replicate (width - digits.length) '0' ++ digits

/-- Hexadecimal with at least `width` digits. -/
def hex (width n : Nat) : String :=
  String.ofList (zeroPad width (hexDigits n))

/-- Decimal with at least `width` digits. -/
def decimal (width n : Nat) : String :=
  String.ofList (zeroPad width (Nat.toDigits 10 n))

/-- The value of one digit in base 16 or below. -/
def digitValue? (base : Nat) (c : Char) : Option Nat :=
  let n := c.toNat
  let v :=
    if 48 ≤ n ∧ n ≤ 57 then n - 48
    else if 97 ≤ n ∧ n ≤ 102 then n - 87
    else if 65 ≤ n ∧ n ≤ 70 then n - 55
    else base
  if v < base then some v else none

/-- The value of a digit string, none if a character is no digit of the base. -/
def digits? (base : Nat) (cs : List Char) : Option Nat :=
  cs.foldl (fun acc c => do return (← acc) * base + (← digitValue? base c)) (some 0)

/-- An unsigned number of at most 32 bits: an optional plus sign and at least one digit. -/
def unsigned? (base : Nat) (cs : List Char) : Option UInt32 := do
  let digits := match cs with
    | '+' :: rest => rest
    | _ => cs
  if digits.isEmpty then none
  else
    let n ← digits? base digits
    if n ≤ 0xffffffff then some n.toUInt32 else none

/-- Why a text is not a signed number of 32 bits. -/
inductive SignedError
  | empty
  | invalidDigit
  | tooLarge
  | tooSmall
  deriving DecidableEq, Repr

/-- The wording of the error. -/
def SignedError.message : SignedError → String
  | .empty => "cannot parse integer from empty string"
  | .invalidDigit => "invalid digit found in string"
  | .tooLarge => "number too large to fit in target type"
  | .tooSmall => "number too small to fit in target type"

/-- Reads digits from the left into a 32-bit accumulator, upwards for a positive number and
downwards for a negative one. The first digit that is no digit, or that leaves the range, decides
which error is reported. -/
def signedDigits (negative : Bool) : Int → List Char → Except SignedError Int
  | acc, [] => .ok acc
  | acc, c :: rest =>
    match digitValue? 10 c with
    | none =>
      .error .invalidDigit
    | some d =>
      let next : Int := if negative then acc * 10 - d else acc * 10 + d
      if next < -0x80000000 then .error .tooSmall
      else if 0x7fffffff < next then .error .tooLarge
      else signedDigits negative next rest

/-- A signed decimal number of 32 bits. A lone sign is an invalid digit. -/
def signed (text : String) : Except SignedError Int :=
  match text.toList with
  | [] => .error .empty
  | ['+'] => .error .invalidDigit
  | ['-'] => .error .invalidDigit
  | '+' :: rest => signedDigits false 0 rest
  | '-' :: rest => signedDigits true 0 rest
  | cs => signedDigits false 0 cs

end DalvikLinkage.Number
