import DalvikLinkage.Bytes.Uleb128
import DalvikLinkage.Symbol.AccessFlags

/-!
# Class data

The members that a class declares, in four lists. The item starts with the lengths of the lists;
then come their entries, every number with variable length. An index is written as its difference
from the one before it in the same list, modulo 2^32, and each list starts again from zero.
-/
namespace DalvikLinkage

/-- A field that a class declares: its index in the field table and its flags. -/
structure DeclaredField where
  index : UInt32
  flags : AccessFlags
  deriving DecidableEq, Repr

/-- A method that a class declares: its index in the method table, its flags and the offset of its
code. -/
structure DeclaredMethod where
  index : UInt32
  flags : AccessFlags
  codeOffset : UInt32
  deriving DecidableEq, Repr

structure ClassData where
  staticFields : List DeclaredField
  instanceFields : List DeclaredField
  directMethods : List DeclaredMethod
  virtualMethods : List DeclaredMethod
  deriving DecidableEq, Repr

namespace ClassData

/-- Reads `count` fields after one with index `previous`. -/
def readFields (previous : UInt32) : (count : Nat) → Reader (List DeclaredField)
  | 0 => pure []
  | count + 1 => do
    let difference ← Uleb128.read
    let flags ← Uleb128.read
    let index := previous + difference
    let rest ← readFields index count
    return { index, flags := ⟨flags⟩ } :: rest

/-- Reads `count` methods after one with index `previous`. -/
def readMethods (previous : UInt32) : (count : Nat) → Reader (List DeclaredMethod)
  | 0 => pure []
  | count + 1 => do
    let difference ← Uleb128.read
    let flags ← Uleb128.read
    let codeOffset ← Uleb128.read
    let index := previous + difference
    let rest ← readMethods index count
    return { index, flags := ⟨flags⟩, codeOffset } :: rest

/-- Reads class data. -/
def read : Reader ClassData := do
  let staticCount ← Uleb128.read
  let instanceCount ← Uleb128.read
  let directCount ← Uleb128.read
  let virtualCount ← Uleb128.read
  let staticFields ← readFields 0 staticCount.toNat
  let instanceFields ← readFields 0 instanceCount.toNat
  let directMethods ← readMethods 0 directCount.toNat
  let virtualMethods ← readMethods 0 virtualCount.toNat
  return { staticFields, instanceFields, directMethods, virtualMethods }

/-- All fields, static ones first. -/
def fields (d : ClassData) : List DeclaredField :=
  d.staticFields ++ d.instanceFields

/-- All methods, direct ones first. -/
def methods (d : ClassData) : List DeclaredMethod :=
  d.directMethods ++ d.virtualMethods

/-! ## Writing -/

/-- The bytes of a list of fields after one with index `previous`. -/
def encodeFields (previous : UInt32) : List DeclaredField → List UInt8
  | [] => []
  | f :: rest =>
    Uleb128.encode (f.index - previous).toNat ++ Uleb128.encode f.flags.bits.toNat ++
      encodeFields f.index rest

/-- The bytes of a list of methods after one with index `previous`. -/
def encodeMethods (previous : UInt32) : List DeclaredMethod → List UInt8
  | [] => []
  | m :: rest =>
    Uleb128.encode (m.index - previous).toNat ++ Uleb128.encode m.flags.bits.toNat ++
      Uleb128.encode m.codeOffset.toNat ++ encodeMethods m.index rest

/-- The bytes of class data. -/
def encode (d : ClassData) : List UInt8 :=
  Uleb128.encode d.staticFields.length ++ Uleb128.encode d.instanceFields.length ++
    Uleb128.encode d.directMethods.length ++ Uleb128.encode d.virtualMethods.length ++
    encodeFields 0 d.staticFields ++ encodeFields 0 d.instanceFields ++
    encodeMethods 0 d.directMethods ++ encodeMethods 0 d.virtualMethods

end ClassData
end DalvikLinkage
