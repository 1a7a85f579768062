import DalvikLinkage.Json.Value
import DalvikLinkage.Text.Number

/-!
# Reading JSON

The grammar of JSON, nothing more: no comments, no trailing commas, no control characters in
strings, no leading zeros, and nothing but white space after the value. A string need not be a text,
so that it can stand where nobody looks at it.
-/
namespace DalvikLinkage.Json

/-- What is left after white space. -/
def skipBlank (cs : List Char) : List Char :=
  cs.dropWhile fun c => c == ' ' || c == '\n' || c == '\t' || c == '\r'

/-! ## Strings -/

/-- A character of a string, or one UTF-16 unit that an escape gave as a number. -/
inductive Unit16
  | char (c : Char)
  | unit (n : Nat)

/-- Four hexadecimal digits. -/
def hexUnit? : List Char → Option (Nat × List Char)
  | a :: b :: c :: d :: rest => do
    let n ← Number.digits? 16 [a, b, c, d]
    return (n, rest)
  | _ => none

/-- The character that an escape of one letter stands for. -/
def shortEscape? : Char → Option Char
  | '"' => some '"'
  | '\\' => some '\\'
  | '/' => some '/'
  | 'b' => some '\x08'
  | 'f' => some '\x0c'
  | 'n' => some '\n'
  | 'r' => some '\r'
  | 't' => some '\t'
  | _ => none

/-- The contents of a string after its opening quote, and what follows the closing one. -/
def stringUnits? : (fuel : Nat) → List Char → Option (List Unit16 × List Char)
  | 0, _ => none
  | fuel + 1, cs =>
    match cs with
    | [] => none
    | '"' :: rest => some ([], rest)
    | '\\' :: 'u' :: rest => do
      let (n, rest) ← hexUnit? rest
      let (units, rest) ← stringUnits? fuel rest
      return (.unit n :: units, rest)
    | '\\' :: c :: rest => do
      let escaped ← shortEscape? c
      let (units, rest) ← stringUnits? fuel rest
      return (.char escaped :: units, rest)
    | c :: rest =>
      if c.toNat < 0x20 || c == '\\' then none
      else do
        let (units, rest) ← stringUnits? fuel rest
        return (.char c :: units, rest)

/-- The text that the contents of a string stand for; none if a surrogate has no partner. -/
def textOfUnits? : List Unit16 → Option (List Char)
  | [] => some []
  | .char c :: rest => do return c :: (← textOfUnits? rest)
  | .unit high :: .unit low :: rest =>
    if 0xD800 ≤ high ∧ high < 0xDC00 then
      if 0xDC00 ≤ low ∧ low < 0xE000 then do
        let value := 0x10000 + (high - 0xD800) * 0x400 + (low - 0xDC00)
        return Char.ofNat value :: (← textOfUnits? rest)
      else none
    else if 0xDC00 ≤ high ∧ high < 0xE000 then none
    else do return Char.ofNat high :: (← textOfUnits? (.unit low :: rest))
  | .unit n :: rest =>
    if 0xD800 ≤ n ∧ n < 0xE000 then none
    else do return Char.ofNat n :: (← textOfUnits? rest)

/-- A string after its opening quote. -/
def string? (cs : List Char) : Option (Option String × List Char) := do
  let (units, rest) ← stringUnits? (cs.length + 1) cs
  return ((textOfUnits? units).map String.ofList, rest)

/-! ## Numbers -/

/-- The digits at the start of a text. -/
def digitRun (cs : List Char) : List Char × List Char :=
  (cs.takeWhile (·.isDigit), cs.dropWhile (·.isDigit))

/-- The whole part of a number: zero, or digits that do not start with zero. -/
def wholePart? (cs : List Char) : Option (List Char × List Char) :=
  match digitRun cs with
  | ([], _) => none
  | (['0'], rest) => some (['0'], rest)
  | ('0' :: _, _) => none
  | (digits, rest) => some (digits, rest)

/-- What follows a fraction; also says whether there was one. -/
def fraction? (cs : List Char) : Option (Bool × List Char) :=
  match cs with
  | '.' :: rest =>
    match digitRun rest with
    | ([], _) => none
    | (_, rest) => some (true, rest)
  | _ => some (false, cs)

/-- What follows the exponent's letter and sign. -/
def exponentDigits? (cs : List Char) : Option (Bool × List Char) :=
  let unsigned := match cs with
    | '+' :: rest => rest
    | '-' :: rest => rest
    | _ => cs
  match digitRun unsigned with
  | ([], _) => none
  | (_, rest) => some (true, rest)

/-- What follows an exponent; also says whether there was one. -/
def exponent? (cs : List Char) : Option (Bool × List Char) :=
  match cs with
  | 'e' :: rest => exponentDigits? rest
  | 'E' :: rest => exponentDigits? rest
  | _ => some (false, cs)

/-- A number. It is an integer if it has neither fraction nor exponent and is not minus zero. -/
def number? (cs : List Char) : Option (Value × List Char) := do
  let (negative, digitsOn) := match cs with
    | '-' :: rest => (true, rest)
    | _ => (false, cs)
  let (digits, rest) ← wholePart? digitsOn
  let (hasFraction, rest) ← fraction? rest
  let (hasExponent, rest) ← exponent? rest
  let magnitude ← Number.digits? 10 digits
  let integer : Option Int :=
    if hasFraction || hasExponent then none
    else if negative then if magnitude = 0 then none else some (-(magnitude : Int))
    else some magnitude
  return (.number integer, rest)

/-! ## Values -/

mutual

/-- A value at the start of a text. -/
def value? : (fuel : Nat) → List Char → Option (Value × List Char)
  | 0, _ => none
  | fuel + 1, cs =>
    match skipBlank cs with
    | '"' :: rest => do
      let (text, rest) ← string? rest
      return (.string text, rest)
    | '[' :: rest =>
      match skipBlank rest with
      | ']' :: rest => some (.array [], rest)
      | _ => do
        let (elements, rest) ← elements? fuel rest
        return (.array elements, rest)
    | '\x7b' :: rest =>
      match skipBlank rest with
      | '\x7d' :: rest => some (.object [], rest)
      | _ => do
        let (members, rest) ← members? fuel rest
        return (.object members, rest)
    | 't' :: 'r' :: 'u' :: 'e' :: rest => some (.bool true, rest)
    | 'f' :: 'a' :: 'l' :: 's' :: 'e' :: rest => some (.bool false, rest)
    | 'n' :: 'u' :: 'l' :: 'l' :: rest => some (.null, rest)
    | rest => number? rest

/-- The elements of an array up to its closing bracket; there is at least one. -/
def elements? : (fuel : Nat) → List Char → Option (List Value × List Char)
  | 0, _ => none
  | fuel + 1, cs => do
    let (head, rest) ← value? fuel cs
    match skipBlank rest with
    | ',' :: rest =>
      let (tail, rest) ← elements? fuel rest
      return (head :: tail, rest)
    | ']' :: rest => return ([head], rest)
    | _ => none

/-- The members of an object up to its closing brace; there is at least one. -/
def members? : (fuel : Nat) → List Char → Option (List (Option String × Value) × List Char)
  | 0, _ => none
  | fuel + 1, cs => do
    match skipBlank cs with
    | '"' :: rest =>
      let (name, rest) ← string? rest
      match skipBlank rest with
      | ':' :: rest =>
        let (head, rest) ← value? fuel rest
        match skipBlank rest with
        | ',' :: rest =>
          let (tail, rest) ← members? fuel rest
          return ((name, head) :: tail, rest)
        | '\x7d' :: rest => return ([(name, head)], rest)
        | _ => none
      | _ => none
    | _ => none

end

/-- The value that a whole text is. -/
def parse? (text : String) : Option Value :=
  let cs := text.toList
  match value? (2 * cs.length + 2) cs with
  | some (value, rest) => if (skipBlank rest).isEmpty then some value else none
  | none => none

end DalvikLinkage.Json
