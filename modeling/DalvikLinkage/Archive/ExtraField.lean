import DalvikLinkage.Archive.Member
import DalvikLinkage.Text.Utf8

/-!
# Extra fields

The header of a member in the directory ends in extra fields, each of which has a kind, a length and
that many bytes. Fields of some kinds amend what the header says: with sizes and an offset of eight
bytes, with a name or a comment in Unicode, or with the method behind an encryption. Those of times
have to be well formed, and all others are passed over.

If the bytes end within a field, what was read of it counts, and the header is taken as it stands.
Only a field that is all there can be unsound.
-/
namespace DalvikLinkage.Archive

/-- The eight bytes at `offset` as a number; none if the bytes end before. -/
def wide? (bytes : Bytes) (offset : Nat) : Option Nat := do
  return (← bytes.word? offset).toNat + 0x100000000 * (← bytes.word? (offset + 4)).toNat

namespace ExtraField

/-- Why fields are not read to their end. -/
inductive Stop
  /-- The bytes end within a field. -/
  | cutOff (m : Member)
  | unsound

/-- What a field makes of a member, and the number of its bytes. -/
abbrev Amended := Except Stop (Member × Nat)

/-- Something read, unless the bytes ended before it. -/
def expect {α : Type} (m : Member) : Option α → Except Stop α
  | some a => .ok a
  | none => .error (.cutOff m)

/-- The field's bytes are there, and leave the member as it is. -/
def whole (extra : Bytes) (start length : Nat) (m : Member) : Amended :=
  if extra.size < start + length then .error (.cutOff m) else .ok (m, length)

/-! ## The kinds -/

/-- The number that a header gives in place of one that does not fit. -/
def tooWide : Nat := 0xFFFFFFFF

/-- The sizes and the offset of the header that do not fit in it; all three of them if the field is
long enough. -/
def wideNumbers (extra : Bytes) (start length : Nat) (m : Member) : Amended := do
  let next (m : Member) (taken given : Nat) (put : Nat → Member) : Amended :=
    if 24 ≤ length || given == tooWide then do
      let n ← expect m (wide? extra (start + taken))
      return (put n, taken + 8)
    else return (m, taken)
  let (m, taken) ← next m 0 m.size fun n => { m with size := n }
  let (m, taken) ← next m taken m.compressedSize fun n => { m with compressedSize := n }
  let (m, taken) ← next m taken m.header fun n => { m with header := n }
  if length < taken then .error .unsound else whole extra start length m

/-- Three times behind a tag and their size. -/
def taggedTimes (extra : Bytes) (start length : Nat) (m : Member) : Amended := do
  if length != 32 then .error .unsound
  else
    let tag ← expect m (extra.half? (start + 4))
    let size ← expect m (extra.half? (start + 6))
    if tag != 1 || size != 24 then .error .unsound else whole extra start length m

/-- Up to three times, each announced by a flag. A field with room for one time may have any of the
flags. -/
def flaggedTimes (extra : Bytes) (start length : Nat) (m : Member) : Amended := do
  let flags ← expect m (extra[start]?)
  let count := (flags &&& 1).toNat + (flags >>> 1 &&& 1).toNat + (flags >>> 2 &&& 1).toNat
  if 7 < flags || (length != 5 && length != 1 + 4 * count) then .error .unsound
  else whole extra start length m

/-- The method behind an encryption, of which there are two versions and three strengths. -/
def encryption (extra : Bytes) (start length : Nat) (m : Member) : Amended := do
  if length != 7 then .error .unsound
  else
    let version ← expect m (extra.half? start)
    let vendor ← expect m (extra.half? (start + 2))
    let strength ← expect m (extra[start + 4]?)
    let method ← expect m (extra.half? (start + 5))
    if vendor = 0x4541 ∧ (version = 1 ∨ version = 2) ∧ 1 ≤ strength ∧ strength ≤ 3 then
      return ({ m with method, aes := true }, length)
    else .error .unsound

/-- A text in Unicode that replaces `plain`, whose checksum it carries. -/
def unicodeText (extra : Bytes) (start length : Nat) (m : Member) (plain : Bytes) :
    Except Stop (Bytes × List Char) := do
  let checksum ← expect m (extra.word? (start + 1))
  if length < 5 then .error .unsound
  else
    let _ ← whole extra start length m
    let text := extra.slice (start + 5) (start + length)
    match Utf8.decode? text.toList with
    | some cs => if checksum = crc32 plain then return (text, cs) else .error .unsound
    | none => .error .unsound

/-- The field of a kind. -/
def ofKind (extra : Bytes) (start : Nat) (kind : UInt16) (length : Nat) (m : Member) :
    Amended := do
  match kind with
  | 0x0001 => wideNumbers extra start length m
  | 0x000A => taggedTimes extra start length m
  | 0x5455 => flaggedTimes extra start length m
  | 0x9901 => encryption extra start length m
  | 0x6375 =>
    let (text, _) ← unicodeText extra start length m m.comment
    return ({ m with comment := text }, length)
  | 0x7075 =>
    let (text, cs) ← unicodeText extra start length m m.nameBytes
    return ({ m with name := String.ofList cs, nameBytes := text }, length)
  | _ => whole extra start length m

end ExtraField

/-- What the extra fields from `offset` on make of a member; none if one of them is unsound. -/
def Member.amend? (m : Member) (extra : Bytes) (offset : Nat) : Option Member :=
  if _h : offset < extra.size then
    match extra.half? offset, extra.half? (offset + 2) with
    | some kind, some length =>
      match ExtraField.ofKind extra (offset + 4) kind length.toNat m with
      | .ok (m, taken) => m.amend? extra (offset + 4 + taken)
      | .error (.cutOff m) => some m
      | .error .unsound => none
    | _, _ => some m
  else some m
termination_by extra.size - offset
decreasing_by omega

end DalvikLinkage.Archive
