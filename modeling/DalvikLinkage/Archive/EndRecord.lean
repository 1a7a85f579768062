import DalvikLinkage.Archive.ExtraField

/-!
# The end of an archive

An archive ends with a record that says where its central directory is and how many members it has.
If a number there is as large as can be, the numbers are in a wide record before it, which a locator
between the two leads to.

Bytes may stand before the archive, so all offsets are relative to where it turns out to start: what
an offset leads to is looked for from there on, and the distance to it is the start. A wide record
has to end where its locator begins.
-/
namespace DalvikLinkage.Archive

/-- Where the directory of an archive is. -/
structure Ending where
  /-- Where the archive starts in the file. -/
  base : Nat
  /-- The offset of the directory in the file. -/
  directory : Nat
  count : Nat
  deriving DecidableEq, Repr

/-- The first place of `magic` at or after `offset` and before `stop`. -/
def find? (bytes : Bytes) (magic : List UInt8) (offset stop : Nat) : Option Nat :=
  (List.range' offset (stop - offset)).find? fun i => bytes.hasAt i magic

/-! ## The records -/

/-- The end record. A directory can be spread over disks: `count` members are on this one, and there
are `total` of them. -/
structure EndRecord where
  disk : Nat
  directoryDisk : Nat
  count : Nat
  total : Nat
  directory : Nat
  deriving DecidableEq, Repr

/-- The end record at an offset, with a comment that does not run past the end. -/
def endRecord? (bytes : Bytes) (offset : Nat) : Option EndRecord := do
  if !bytes.hasAt offset [0x50, 0x4b, 0x05, 0x06] then none
  else
    let disk ← bytes.half? (offset + 4)
    let directoryDisk ← bytes.half? (offset + 6)
    let count ← bytes.half? (offset + 8)
    let total ← bytes.half? (offset + 10)
    let directory ← bytes.word? (offset + 16)
    let commentLength ← bytes.half? (offset + 20)
    if bytes.size < offset + 22 + commentLength.toNat then none
    else
      return {
        disk := disk.toNat, directoryDisk := directoryDisk.toNat, count := count.toNat
        total := total.toNat, directory := directory.toNat }

/-- The numbers may be in a wide record. -/
def EndRecord.mayBeWide (r : EndRecord) : Bool :=
  r.total == 0xFFFF || r.directory == 0xFFFFFFFF

/-- What leads to a wide record. -/
structure Locator where
  /-- Where the locator stands in the file. -/
  place : Nat
  directoryDisk : Nat
  /-- The offset of the wide record in the archive. -/
  record : Nat
  diskCount : Nat
  deriving DecidableEq, Repr

/-- The locator right before the end record at an offset. -/
def locator? (bytes : Bytes) (offset : Nat) : Option Locator := do
  let place := offset - 20
  if offset < 20 || !bytes.hasAt place [0x50, 0x4b, 0x06, 0x07] then none
  else
    let directoryDisk ← bytes.word? (place + 4)
    let record ← wide? bytes (place + 8)
    let diskCount ← bytes.word? (place + 16)
    return {
      place, directoryDisk := directoryDisk.toNat, record, diskCount := diskCount.toNat }

/-- The wide record, with the versions of the format that the archive was made by and needs. -/
structure WideRecord extends EndRecord where
  /-- Where the record stands in the file. -/
  place : Nat
  madeBy : UInt16
  needed : UInt16
  deriving DecidableEq, Repr

/-- The wide record at a place: it reaches to the locator, agrees with it about the disk of the
directory, and leaves room for the directory's headers. -/
def wideRecord? (bytes : Bytes) (locator : Locator) (place : Nat) : Option WideRecord := do
  let size ← wide? bytes (place + 4)
  let madeBy ← bytes.half? (place + 12)
  let needed ← bytes.half? (place + 14)
  let disk ← bytes.word? (place + 16)
  let directoryDisk ← bytes.word? (place + 20)
  let count ← wide? bytes (place + 24)
  let total ← wide? bytes (place + 32)
  let directory ← wide? bytes (place + 48)
  if size < 44 || place + 12 + size != locator.place
      || directoryDisk.toNat != locator.directoryDisk || place < 46 * total + directory then none
  else
    return {
      disk := disk.toNat, directoryDisk := directoryDisk.toNat, count, total, directory, place
      madeBy, needed }

/-! ## Where they lead -/

/-- The end of an archive whose numbers fit the end record at `offset`. One without members starts
as late as it can. -/
def EndRecord.ending? (r : EndRecord) (bytes : Bytes) (offset : Nat) : Option Ending := do
  let base ← (if r.total = 0 then some (offset - r.directory)
    else if offset ≤ r.directory then none
    else (find? bytes [0x50, 0x4b, 0x01, 0x02] r.directory offset).map (· - r.directory))
  if r.disk != r.directoryDisk then none
  else return { base, directory := r.directory + base, count := r.count }

/-- The end of an archive with a wide record. The first one that fits its locator is taken. -/
def Locator.ending? (locator : Locator) (bytes : Bytes) : Option Ending := do
  if locator.place ≤ locator.record || 1 < locator.diskCount then none
  else
    let places := (List.range' locator.record (locator.place - locator.record)).filter fun i =>
      bytes.hasAt i [0x50, 0x4b, 0x06, 0x06]
    let r ← places.findSome? (wideRecord? bytes locator)
    if r.total < r.count || r.madeBy < r.needed || r.disk != r.directoryDisk then none
    else
      let base := r.place - locator.record
      return { base, directory := r.directory + base, count := r.total }

/-- The end of the archive whose end record is at an offset. -/
def ending? (bytes : Bytes) (offset : Nat) : Option Ending := do
  let r ← endRecord? bytes offset
  match if r.mayBeWide then locator? bytes offset else none with
  | some locator => locator.ending? bytes
  | none => r.ending? bytes offset

end DalvikLinkage.Archive
