import DalvikLinkage.Elf.Format
import DalvikLinkage.Text.Utf8

/-!
# Tables of strings and symbols

A symbol names itself by an offset into a table of strings. Every table has to lie inside the file,
and strings have to be UTF-8.
-/
namespace DalvikLinkage.Elf

/-- A symbol under its name. -/
structure NamedSymbol where
  name : List UInt8
  value : Nat
  size : Nat
  deriving DecidableEq, Repr

/-- The sum of two numbers of 64 bits, if it is one. -/
def checkedAdd (a b : Nat) : Option Nat :=
  if a + b ≤ 0xffffffffffffffff then some (a + b) else none

/-- `size` bytes from an offset inside the file on are inside it too. The end of the file is not
inside it, even for no bytes. -/
def isInside (bytes : Bytes) (offset size : Nat) : Bool :=
  offset < bytes.size && offset + size ≤ bytes.size

/-! ## Strings -/

/-- The bytes between zero bytes. -/
def runs : List UInt8 → List (List UInt8)
  | [] => [[]]
  | b :: rest =>
    if b = 0 then [] :: runs rest
    else match runs rest with
      | [] => [[b]]
      | run :: others => (b :: run) :: others

/-- A table of strings, each of which is UTF-8. One without bytes may stand at the end of the file.
-/
def stringTable? (bytes : Bytes) (offset size : Nat) : Option (List UInt8) := do
  let stop ← checkedAdd offset size
  if bytes.size < stop then none
  else
    let table := (bytes.slice offset stop).toList
    if (runs table).all fun run => (Utf8.decode? run).isSome then some table else none

/-- The string at an offset of a table, up to the next zero byte. -/
def stringAt (table : List UInt8) (offset : Nat) : List UInt8 :=
  (table.drop offset).takeWhile (· != 0)

/-! ## Symbols -/

/-- A table of `count` symbols. -/
def symbolTable? (f : Format) (bytes : Bytes) (offset count : Nat) : Option (List Symbol) :=
  if isInside bytes offset (count * symbolLength f) then
    records? (symbol? f bytes) (symbolLength f) offset count
  else none

/-- The symbols with their names. -/
def withNames (table : List UInt8) (symbols : List Symbol) : List NamedSymbol :=
  symbols.map fun s => { name := stringAt table s.name, value := s.value, size := s.size }

end DalvikLinkage.Elf
