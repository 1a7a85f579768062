import DalvikLinkage.Bytes.Uleb128
import DalvikLinkage.Text.ModifiedUtf8

/-!
# String data

A string item is the number of UTF-16 units of the text, the text in modified UTF-8, and a zero
byte. The end is found by the zero byte, not by the count. Bytes that are UTF-8 as a whole are read
as such, and bytes that are neither are kept as they are.
-/
namespace DalvikLinkage

/-- The string data of an image. -/
inductive StringItem
  | decoded (text : String)
  | raw (units : UInt32) (bytes : List UInt8)
  deriving DecidableEq, Repr

namespace StringItem

/-- The characters of string data. -/
def decode? (bytes : List UInt8) : Option (List Char) :=
  (Utf8.decode? bytes).or (ModifiedUtf8.decode? bytes)

/-- The string that a count of units and the bytes before the zero byte stand for. -/
def ofBytes (units : UInt32) (bytes : List UInt8) : StringItem :=
  match decode? bytes with
  | some cs => .decoded (String.ofList cs)
  | none => .raw units bytes

/-- Reads a string item. -/
def read : Reader StringItem := do
  let units ← Uleb128.read
  let bytes ← Reader.untilNul
  return ofBytes units bytes.toList

/-- The text, a fault for bytes that are none. -/
def text : StringItem → Except Fault String
  | decoded text => .ok text
  | raw _ _ => .error { cause := .undecodedString }

/-- The bytes of a string item with that count of units and that string data. -/
def encodeRaw (units : Nat) (data : List UInt8) : List UInt8 :=
  Uleb128.encode units ++ data ++ [0]

/-- The bytes of the string item of a text. -/
def encode (cs : List Char) : List UInt8 :=
  encodeRaw (ModifiedUtf8.units cs) (ModifiedUtf8.encode cs)

end StringItem
end DalvikLinkage
