import DalvikLinkage.Text.Blank
import DalvikLinkage.Text.Number
import DalvikLinkage.Text.Pieces

/-!
# Access flags

The flags of classes, fields and methods. Bits without a name are kept. As a text, a set of flags is
the names of its bits in the order of the table, then the nameless bits in hexadecimal; where two
names stand for one bit, the earlier name is written and both are read.
-/
namespace DalvikLinkage

/-- A set of access flags. -/
structure AccessFlags where
  bits : UInt32
  deriving DecidableEq, Repr, Inhabited

namespace AccessFlags

/-- The declared names, in order. -/
def names : List (String × UInt32) :=
  [("PUBLIC", 0x1), ("PRIVATE", 0x2), ("PROTECTED", 0x4), ("STATIC", 0x8), ("FINAL", 0x10),
    ("SYNCHRONIZED", 0x20), ("VOLATILE", 0x40), ("BRIDGE", 0x40), ("TRANSIENT", 0x80),
    ("VARARGS", 0x80), ("NATIVE", 0x100), ("INTERFACE", 0x200), ("ABSTRACT", 0x400),
    ("STRICT", 0x800), ("SYNTHETIC", 0x1000), ("ANNOTATION", 0x2000), ("ENUM", 0x4000),
    ("CONSTRUCTOR", 0x10000), ("DECLARED_SYNCHRONIZED", 0x20000)]

def isPublic : AccessFlags := ⟨0x1⟩

/-- All bits of `other` are set. -/
def contains (flags other : AccessFlags) : Bool :=
  flags.bits &&& other.bits == other.bits

/-- The member is private to its class. -/
def isPrivate (flags : AccessFlags) : Bool :=
  flags.contains ⟨0x2⟩

/-- All bits that have a name. -/
def known : UInt32 :=
  names.foldl (fun bits entry => bits ||| entry.2) 0

/-- The flags without nameless bits. -/
def truncated (flags : AccessFlags) : AccessFlags :=
  ⟨flags.bits &&& known⟩

/-- Every bit has a name. -/
def isKnown (flags : AccessFlags) : Bool :=
  flags.truncated == flags

/-- Goes through a table of names: those of `flags` whose bits no earlier name has covered, and the
bits that are left. -/
def namesFrom (flags : AccessFlags) (left : UInt32) :
    List (String × UInt32) → List String × UInt32
  | [] => ([], left)
  | (name, bits) :: rest =>
    if flags.contains ⟨bits⟩ && left &&& bits != 0 then
      let (found, left) := namesFrom flags (left &&& ~~~bits) rest
      (name :: found, left)
    else namesFrom flags left rest

/-- The names of the set. -/
def setNames (flags : AccessFlags) : List String :=
  (flags.namesFrom flags.bits names).1

/-- The bits of the set that have no name. -/
def nameless (flags : AccessFlags) : UInt32 :=
  (flags.namesFrom flags.bits names).2

/-- The set as a text. -/
def text (flags : AccessFlags) : String :=
  let left := flags.nameless
  let rest := if left = 0 then [] else ["0x" ++ Number.hex 1 left.toNat]
  Text.join " | " (flags.setNames ++ rest)

/-- The set as a text that says what it is; the empty set is written as a number. -/
def labelled (flags : AccessFlags) : String :=
  "AccessFlags(" ++ (if flags.bits = 0 then "0x0" else flags.text) ++ ")"

/-- The bits of one part of a text: a declared name or a hexadecimal number. -/
def partBits? (part : List Char) : Option UInt32 :=
  match Text.withoutStart? ['0', 'x'] part with
  | some digits => Number.unsigned? 16 digits
  | none => (names.find? fun entry => entry.1.toList == part).map (·.2)

/-- Reads a set from a text. A blank text is the empty set; otherwise every part between bars has to
be a name or a number. -/
def parse? (text : String) : Option AccessFlags :=
  if (Text.trim text.toList).isEmpty then some ⟨0⟩
  else
    (Text.pieces (· == '|') text.toList).foldl
      (fun flags part => do return ⟨(← flags).bits ||| (← partBits? (Text.trim part))⟩) (some ⟨0⟩)

end AccessFlags
end DalvikLinkage
