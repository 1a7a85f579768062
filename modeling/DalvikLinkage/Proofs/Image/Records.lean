import DalvikLinkage.Image
import DalvikLinkage.Proofs.Bytes.Uleb128
import Mathlib.Data.List.TakeWhile

/-!
# The parts of an image by their offsets

What an image holds is addressed by offsets, so each of its parts can be described by the bytes at
one offset and, where a part names another one by its offset, by the bytes there. Reading goes
through a part from its start; it should find nothing but what is so described, and find it whenever
the bytes reach as far as the part does.

Results:
* `StringItem.gives_read`, `TypeList.gives_readAt`: parts that other parts name;
* `ProtoRecord.gives_read`, `FieldRecord.gives_read`, `MethodRecord.gives_read`,
  `ClassRecord.gives_readFront`: the records of the tables;
* `Header.gives_read`: the header.
-/
namespace DalvikLinkage

open Reader (Gives gives_u2 gives_u4 gives_pure)

/-! ## Strings -/

namespace StringItem

/-- The string item that starts the bytes. -/
def first (bytes : List UInt8) : StringItem :=
  ofBytes (Uleb128.value (Uleb128.lead bytes)).toUInt32
    (Bytes.untilZero (bytes.drop (Uleb128.lead bytes).length))

/-- The bytes start with a string item: the digits of a number, and a text that a zero byte ends. -/
def Starts (bytes : List UInt8) : Prop :=
  ∃ digits text rest, bytes = digits ++ text ++ 0 :: rest ∧ Uleb128.IsNumber digits ∧
    digits.length ≤ 5 ∧ 0 ∉ text

/-- The string item at an offset. -/
def ofOffset (bytes : Bytes) (offset : Nat) : StringItem :=
  first (bytes.toList.drop offset)

/-- A whole string item stands at the offset. -/
def StandsAt (bytes : Bytes) (offset : Nat) : Prop :=
  Starts (bytes.toList.drop offset)

theorem starts_iff (bytes : List UInt8) :
    Starts bytes ↔
      Uleb128.StartsNumber 5 bytes ∧ 0 ∈ bytes.drop (Uleb128.lead bytes).length := by
  constructor
  · rintro ⟨digits, text, rest, rfl, hdigits, hlength, -⟩
    rw [List.append_assoc, Uleb128.lead_append hdigits, List.drop_left]
    exact ⟨⟨digits, text ++ 0 :: rest, rfl, hdigits, hlength⟩, by simp⟩
  · rintro ⟨⟨digits, after, rfl, hdigits, hlength⟩, hzero⟩
    rw [Uleb128.lead_append hdigits, List.drop_left] at hzero
    obtain ⟨text, rest, rfl, htext⟩ := List.eq_append_cons_of_mem hzero
    exact ⟨digits, text, rest, (List.append_assoc _ _ _).symm, hdigits, hlength, htext⟩

theorem gives_read (bytes : Bytes) (offset : Nat) :
    ∃ after, read.Gives bytes offset (StandsAt bytes offset) (ofOffset bytes offset) after := by
  refine ⟨_, Gives.congr (Gives.bind (Uleb128.gives_read bytes offset) fun _ =>
    Gives.bind Reader.gives_untilNul fun _ => gives_pure _) ?_ fun _ => ?_⟩
  · rw [StandsAt, starts_iff, List.drop_drop, and_true]
  · rw [ofOffset, first, List.drop_drop]

end StringItem

/-! ## Lists of types -/

namespace TypeList

/-- The list of types at an offset, where zero stands for the empty list. -/
def ofOffset (bytes : Bytes) (offset : UInt32) : TypeList :=
  if offset = 0 then []
  else (List.range (bytes.wordAt offset.toNat).toNat).map fun i =>
    bytes.halfAt (offset.toNat + 4 + 2 * i)

/-- A whole list of types stands at the offset, unless that is zero. -/
def StandsAt (bytes : Bytes) (offset : UInt32) : Prop :=
  offset ≠ 0 → offset.toNat + 4 + 2 * (bytes.wordAt offset.toNat).toNat ≤ bytes.size

theorem gives_readAt (bytes : Bytes) (here : Nat) (offset : UInt32) :
    (readAt offset).Gives bytes here (StandsAt bytes offset) (ofOffset bytes offset) here := by
  unfold readAt ofOffset StandsAt
  split
  · next h => exact (gives_pure []).congr (by simp [h]) fun _ => rfl
  · next h =>
    have hcount : Reader.u4.Gives bytes offset.toNat _ _ _ := gives_u4
    have htypes : (Reader.times (bytes.wordAt offset.toNat).toNat Reader.u2).Gives bytes
        (offset.toNat + 4) (∀ i < (bytes.wordAt offset.toNat).toNat,
          offset.toNat + 4 + 2 * i + 2 ≤ bytes.size) _ _ :=
      Gives.times fun i _ => gives_u2
    refine Gives.congr (Gives.elsewhere (Gives.bind hcount fun _ => htypes)) ?_ fun _ => rfl
    rw [imp_iff_right h]
    generalize (bytes.wordAt offset.toNat).toNat = count
    constructor
    · rintro ⟨hbounds, hentries⟩
      cases count with
      | zero => exact hbounds
      | succ last =>
        -- The last entry reaches farthest.
        have := hentries last (Nat.lt_succ_self last)
        omega
    · intro hbounds
      exact ⟨by omega, fun i hi => by omega⟩

end TypeList

/-! ## Records -/

/-- The record of a prototype at an offset. -/
def ProtoRecord.ofOffset (bytes : Bytes) (offset : Nat) : ProtoRecord where
  shorty := bytes.wordAt offset
  result := bytes.wordAt (offset + 4)
  parameters := TypeList.ofOffset bytes (bytes.wordAt (offset + 8))

/-- A whole record of a prototype stands at the offset, and its parameters where it says. -/
def ProtoRecord.StandsAt (bytes : Bytes) (offset : Nat) : Prop :=
  offset + 12 ≤ bytes.size ∧ TypeList.StandsAt bytes (bytes.wordAt (offset + 8))

theorem ProtoRecord.gives_read (bytes : Bytes) (offset : Nat) :
    read.Gives bytes offset (StandsAt bytes offset) (ofOffset bytes offset) (offset + 12) := by
  unfold StandsAt
  refine Gives.congr (Gives.bind gives_u4 fun _ =>
    Gives.bind gives_u4 fun _ => Gives.bind gives_u4 fun _ =>
    Gives.bind (TypeList.gives_readAt bytes _ _) fun _ => gives_pure _) ?_ fun _ => rfl
  grind

/-- The record of a field at an offset. -/
def FieldRecord.ofOffset (bytes : Bytes) (offset : Nat) : FieldRecord where
  owner := bytes.halfAt offset
  type := bytes.halfAt (offset + 2)
  name := bytes.wordAt (offset + 4)

theorem FieldRecord.gives_read (bytes : Bytes) (offset : Nat) :
    read.Gives bytes offset (offset + 8 ≤ bytes.size) (ofOffset bytes offset) (offset + 8) := by
  refine Gives.congr (Gives.bind gives_u2 fun _ =>
    Gives.bind gives_u2 fun _ => Gives.bind gives_u4 fun _ =>
    gives_pure _) ?_ fun _ => rfl
  grind

/-- The record of a method at an offset. -/
def MethodRecord.ofOffset (bytes : Bytes) (offset : Nat) : MethodRecord where
  owner := bytes.halfAt offset
  proto := bytes.halfAt (offset + 2)
  name := bytes.wordAt (offset + 4)

theorem MethodRecord.gives_read (bytes : Bytes) (offset : Nat) :
    read.Gives bytes offset (offset + 8 ≤ bytes.size) (ofOffset bytes offset) (offset + 8) := by
  refine Gives.congr (Gives.bind gives_u2 fun _ =>
    Gives.bind gives_u2 fun _ => Gives.bind gives_u4 fun _ =>
    gives_pure _) ?_ fun _ => rfl
  grind

/-- The record of a class at an offset. -/
def ClassRecord.ofOffset (bytes : Bytes) (offset : Nat) : ClassRecord where
  type := bytes.wordAt offset
  flags := ⟨bytes.wordAt (offset + 4)⟩
  superclass := optionalIndex (bytes.wordAt (offset + 8))
  interfaces := TypeList.ofOffset bytes (bytes.wordAt (offset + 12))
  sourceFile := optionalIndex (bytes.wordAt (offset + 16))
  data := ClassDataState.ofOffset bytes (bytes.wordAt (offset + 24))

/-- A whole record of a class stands at the offset, and its interfaces where it says. -/
def ClassRecord.StandsAt (bytes : Bytes) (offset : Nat) : Prop :=
  offset + 32 ≤ bytes.size ∧ TypeList.StandsAt bytes (bytes.wordAt (offset + 12))

theorem ClassDataState.gives_readAt (bytes : Bytes) (here : Nat) (offset : UInt32) :
    (readAt offset).Gives bytes here True (ofOffset bytes offset) here := by
  intro x
  simp [readAt, eq_comm]

theorem ClassRecord.gives_readFront (bytes : Bytes) (offset : Nat) :
    readFront.Gives bytes offset
      (offset + 28 ≤ bytes.size ∧ TypeList.StandsAt bytes (bytes.wordAt (offset + 12)))
      (ofOffset bytes offset) (offset + 28) := by
  refine Gives.congr (Gives.bind gives_u4 fun _ =>
    Gives.bind gives_u4 fun _ => Gives.bind gives_u4 fun _ =>
    Gives.bind gives_u4 fun _ =>
    Gives.bind (TypeList.gives_readAt bytes _ _) fun _ =>
    Gives.bind gives_u4 fun _ => Gives.bind gives_u4 fun _ =>
    Gives.bind gives_u4 fun _ =>
    Gives.bind (ClassDataState.gives_readAt bytes _ _) fun _ =>
    gives_pure _) ?_ fun _ => rfl
  grind

/-- The reader of whole class records, without what it says on the way. -/
def ClassRecord.reader : Reader ClassRecord := fun bytes offset =>
  (read bytes offset).outcome

theorem ClassRecord.reader_eq :
    reader = readFront >>= fun record => Reader.u4 >>= fun _ => pure record := by
  funext bytes offset
  change (Logged.andThen (Logged.of (readFront bytes offset)) _).outcome =
    Reader.andThen readFront _ bytes offset
  rw [Logged.andThen, Reader.andThen, Logged.outcome_of]
  cases readFront bytes offset with
  | error fault => rfl
  | ok x =>
    obtain ⟨record, after⟩ := x
    change (Logged.andThen (Logged.of (Reader.u4 bytes after)) _).outcome =
      Reader.andThen Reader.u4 _ bytes after
    rw [Logged.andThen, Reader.andThen, Logged.outcome_of]
    cases Reader.u4 bytes after <;> rfl

theorem ClassRecord.gives_reader (bytes : Bytes) (offset : Nat) :
    reader.Gives bytes offset (StandsAt bytes offset) (ofOffset bytes offset) (offset + 32) := by
  rw [reader_eq]
  refine Gives.congr (Gives.bind (gives_readFront bytes offset) fun _ =>
    Gives.bind gives_u4 fun _ => gives_pure _) ?_ fun _ => rfl
  unfold StandsAt
  grind

/-! ## The header -/

theorem Extent.gives_read (bytes : Bytes) (offset : Nat) :
    read.Gives bytes offset (offset + 8 ≤ bytes.size)
      ⟨bytes.wordAt offset, bytes.wordAt (offset + 4)⟩ (offset + 8) := by
  refine Gives.congr (Gives.bind gives_u4 fun _ => Gives.bind gives_u4 fun _ =>
    gives_pure _) ?_ fun _ => rfl
  grind

namespace Header

/-- The header of an image: its words stand at fixed offsets. -/
def ofBytes (bytes : Bytes) : Header where
  magic := (bytes.slice 0 8).toList
  checksum := bytes.wordAt 8
  signature := (bytes.slice 12 32).toList
  fileSize := bytes.wordAt 32
  headerSize := bytes.wordAt 36
  endianTag := bytes.wordAt 40
  link := ⟨bytes.wordAt 44, bytes.wordAt 48⟩
  mapOffset := bytes.wordAt 52
  strings := ⟨bytes.wordAt 56, bytes.wordAt 60⟩
  types := ⟨bytes.wordAt 64, bytes.wordAt 68⟩
  protos := ⟨bytes.wordAt 72, bytes.wordAt 76⟩
  fields := ⟨bytes.wordAt 80, bytes.wordAt 84⟩
  methods := ⟨bytes.wordAt 88, bytes.wordAt 92⟩
  classes := ⟨bytes.wordAt 96, bytes.wordAt 100⟩
  data := ⟨bytes.wordAt 104, bytes.wordAt 108⟩

theorem gives_expectMagic (bytes : Bytes) :
    expectMagic.Gives bytes 0 (0x70 ≤ bytes.size ∧ isImage bytes = true) () 0 := by
  intro x
  unfold expectMagic isImage length
  by_cases hsize : 0x70 ≤ bytes.size
  · cases hmagic : isImageAt bytes 0 <;> simp [hsize, Nat.not_lt.2 hsize, eq_comm]
  · simp [hsize, Nat.not_le.1 hsize]

theorem gives_read (bytes : Bytes) :
    read.Gives bytes 0
      (0x70 ≤ bytes.size ∧ isImage bytes = true ∧ bytes.wordAt 40 = 0x12345678)
      (ofBytes bytes) 0x70 := by
  refine Gives.congr (Gives.bind (gives_expectMagic bytes) fun _ =>
    Gives.bind (Reader.gives_take 8) fun _ => Gives.bind gives_u4 fun _ =>
    Gives.bind (Reader.gives_take 20) fun _ => Gives.bind gives_u4 fun _ =>
    Gives.bind gives_u4 fun _ => Gives.bind gives_u4 fun _ =>
    Gives.bind (Extent.gives_read _ _) fun _ => Gives.bind gives_u4 fun _ =>
    Gives.bind (Extent.gives_read _ _) fun _ => Gives.bind (Extent.gives_read _ _) fun _ =>
    Gives.bind (Extent.gives_read _ _) fun _ => Gives.bind (Extent.gives_read _ _) fun _ =>
    Gives.bind (Extent.gives_read _ _) fun _ => Gives.bind (Extent.gives_read _ _) fun _ =>
    Gives.bind (Extent.gives_read _ _) fun _ => (gives_pure _).ite_fail) ?_ fun _ => rfl
  have htag : (bytes.wordAt 40 != littleEndian) = true ↔ bytes.wordAt 40 ≠ 0x12345678 := bne_iff_ne
  simp only [Nat.zero_add, Nat.reduceAdd]
  grind

end Header

end DalvikLinkage
