import DalvikLinkage.Archive.EndRecord
import DalvikLinkage.Text.CodePage437

/-!
# The directory of an archive

The central directory has a header for each member, which leads to a local header right before the
member's data.

The last end record that leads to a sound directory is taken. A member whose name repeats keeps the
first position and the last contents.
-/
namespace DalvikLinkage.Archive

/-- A text of a header: UTF-8 if the flags say so, otherwise of code page 437. -/
def decodeText (flags : UInt16) (bytes : Bytes) : List Char :=
  if flags &&& 0x800 != 0 then Utf8.decodeLossy bytes.toList else CodePage437.decode bytes.toList

/-- The member whose directory header is at `offset`, amended by the extra fields, and the offset
after the header. The archive starts at `base`. -/
def member? (bytes : Bytes) (base offset : Nat) : Option (Member × Nat) := do
  if !bytes.hasAt offset [0x50, 0x4b, 0x01, 0x02] then none
  else
    let flags ← bytes.half? (offset + 8)
    let method ← bytes.half? (offset + 10)
    let checksum ← bytes.word? (offset + 16)
    let compressedSize ← bytes.word? (offset + 20)
    let size ← bytes.word? (offset + 24)
    let nameLength ← bytes.half? (offset + 28)
    let extraLength ← bytes.half? (offset + 30)
    let commentLength ← bytes.half? (offset + 32)
    let header ← bytes.word? (offset + 42)
    let nameEnd := offset + 46 + nameLength.toNat
    let extraEnd := nameEnd + extraLength.toNat
    let stop := extraEnd + commentLength.toNat
    if bytes.size < stop then none
    else
      let nameBytes := bytes.slice (offset + 46) nameEnd
      let given : Member := {
        name := String.ofList (decodeText flags nameBytes)
        nameBytes
        comment := (Utf8.encode (decodeText flags (bytes.slice extraEnd stop))).toArray
        flags, method, checksum
        size := size.toNat, compressedSize := compressedSize.toNat, header := header.toNat
        aes := false }
      let m ← given.amend? (bytes.slice nameEnd extraEnd) 0
      -- The method of encryption needs a field that says what is behind it.
      if m.method = 99 ∧ m.aes = false then none
      else return ({ m with header := base + m.header }, stop)

/-- The members of `count` directory headers one after the other. -/
def membersAt? (bytes : Bytes) (base offset : Nat) : (count : Nat) → Option (List Member)
  | 0 => some []
  | count + 1 => do
    let (member, after) ← member? bytes base offset
    return member :: (← membersAt? bytes base after count)

/-- Puts a member in the place of one with its name, or at the end. -/
def putMember (members : List Member) (m : Member) : List Member :=
  if members.any (·.name == m.name) then members.map fun n => if n.name == m.name then m else n
  else members ++ [m]

/-- The members that the end record at `offset` leads to. -/
def membersFrom? (bytes : Bytes) (offset : Nat) : Option (List Member) := do
  let ending ← ending? bytes offset
  let members ← membersAt? bytes ending.base ending.directory ending.count
  return members.foldl putMember []

/-- The members of an archive; none if no end record leads to a directory. -/
def members? (bytes : Bytes) : Option (List Member) :=
  (List.range bytes.size).reverse.findSome? (membersFrom? bytes)

end DalvikLinkage.Archive
