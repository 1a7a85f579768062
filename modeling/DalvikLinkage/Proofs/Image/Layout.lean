import DalvikLinkage.Proofs.Image.Records

/-!
# Reading an image by its header

The header of an image gives for each table its offset and the number of its entries, and the
entries of a table have one width, so every part of an image can be found without reading the parts
before it. Nothing keeps the tables in order or apart: they may overlap each other and the header.
Reading goes through them one after the other and finds just what stands at these places, if all of
it is there.

Results:
* `gives_readStrings`, `gives_readTypes`, `gives_readTable`: what the tables give;
* `outcome_readClasses`: classes are read like the entries of any other table;
* `ofBytes_eq_ok_iff`: which bytes are read as an image, and as which one.
-/
namespace DalvikLinkage

open Reader (Gives gives_u4 gives_pure gives_seek)

/-! ## The parts of an image -/

namespace Extent

/-- Where an entry stands in a table whose entries have that width. -/
def place (e : Extent) (width index : Nat) : Nat :=
  e.offset.toNat + width * index

/-- The places of all entries are such. -/
def Each (e : Extent) (width : Nat) (ok : Nat → Prop) : Prop :=
  ∀ i < e.size.toNat, ok (e.place width i)

/-- The values at the places of all entries. -/
def table {α : Type} (e : Extent) (width : Nat) (value : Nat → α) : List α :=
  (List.range e.size.toNat).map fun i => value (e.place width i)

end Extent

namespace Image

/-- The string that the entry at an offset of the string table names. -/
def stringAt (bytes : Bytes) (offset : Nat) : StringItem :=
  StringItem.ofOffset bytes (bytes.wordAt offset).toNat

/-- An entry of the string table stands at the offset, and its string item where it says. -/
def StringStandsAt (bytes : Bytes) (offset : Nat) : Prop :=
  offset + 4 ≤ bytes.size ∧ StringItem.StandsAt bytes (bytes.wordAt offset).toNat

/-- An entry of the type table stands at the offset, and the string that it names is in the table
and is text. -/
def TypeStandsAt (bytes : Bytes) (strings : Extent) (offset : Nat) : Prop :=
  offset + 4 ≤ bytes.size ∧ (bytes.wordAt offset).toNat < strings.size.toNat ∧
    ∃ text, stringAt bytes (strings.place 4 (bytes.wordAt offset).toNat) = .decoded text

/-- Everything is there that a header announces: all entries of the tables, and what they name. -/
structure Holds (bytes : Bytes) (h : Header) : Prop where
  strings : h.strings.Each 4 (StringStandsAt bytes)
  types : h.types.Each 4 (TypeStandsAt bytes h.strings)
  protos : h.protos.Each 12 (ProtoRecord.StandsAt bytes)
  fields : h.fields.Each 8 fun place => place + 8 ≤ bytes.size
  methods : h.methods.Each 8 fun place => place + 8 ≤ bytes.size
  classes : h.classes.Each 32 (ClassRecord.StandsAt bytes)

/-- The bytes are an image: a header, and everything that it announces. -/
structure Readable (bytes : Bytes) : Prop where
  size : 0x70 ≤ bytes.size
  magic : isImage bytes = true
  littleEndian : bytes.wordAt 0x28 = 0x12345678
  tables : Holds bytes (Header.ofBytes bytes)

/-- The tables of a header, each entry taken from its place. -/
def ofHeader (bytes : Bytes) (h : Header) : Image where
  header := h
  strings := (h.strings.table 4 (stringAt bytes)).toArray
  types := (h.types.table 4 bytes.wordAt).toArray
  protos := (h.protos.table 12 (ProtoRecord.ofOffset bytes)).toArray
  fields := (h.fields.table 8 (FieldRecord.ofOffset bytes)).toArray
  methods := (h.methods.table 8 (MethodRecord.ofOffset bytes)).toArray
  classes := h.classes.table 32 (ClassRecord.ofOffset bytes)

variable {bytes : Bytes} {here : Nat} {e : Extent} {h : Header}

/-! ## Tables -/

theorem gives_readTable {α : Type} {record : Reader α} {width : Nat} {ok : Nat → Prop}
    {value : Nat → α}
    (hrecord : ∀ offset, record.Gives bytes offset (ok offset) (value offset) (offset + width)) :
    (readTable e record).Gives bytes here (e.Each width ok) (e.table width value).toArray
      (e.place width e.size.toNat) := by
  have hrecords : (Reader.times e.size.toNat record).Gives bytes e.offset.toNat
      (e.Each width ok) (e.table width value) (e.place width e.size.toNat) :=
    Gives.times fun i _ => hrecord (e.place width i)
  refine Gives.congr (Gives.bind (gives_seek _) fun _ => Gives.bind hrecords fun _ =>
    gives_pure _) ?_ fun _ => rfl
  rw [true_and, and_true]

theorem gives_readString (index offset : Nat) :
    (readString index).Gives bytes offset (StringStandsAt bytes offset) (stringAt bytes offset)
      (offset + 4) := by
  obtain ⟨after, hitem⟩ := StringItem.gives_read bytes (bytes.wordAt offset).toNat
  exact Gives.bind gives_u4 fun _ => (hitem.within _).elsewhere

theorem gives_readStrings :
    (readStrings e).Gives bytes here
      (e.Each 4 (StringStandsAt bytes)) (e.table 4 (stringAt bytes)).toArray
      (e.place 4 e.size.toNat) := by
  have hstrings : (Reader.forIndices readString 0 e.size.toNat).Gives bytes e.offset.toNat
      (e.Each 4 (StringStandsAt bytes)) (e.table 4 (stringAt bytes)) (e.place 4 e.size.toNat) :=
    Gives.forIndices fun i _ => gives_readString (0 + i) (e.place 4 i)
  refine Gives.congr (Gives.bind (gives_seek _) fun _ => Gives.bind hstrings fun _ =>
    gives_pure _) ?_ fun _ => rfl
  rw [true_and, and_true]

/-- A type is read if its string is in the table and is text. -/
theorem gives_readType (strings : Array StringItem) (offset : Nat) :
    (readType strings).Gives bytes offset
      (offset + 4 ≤ bytes.size ∧
        ∃ text, strings[(bytes.wordAt offset).toNat]? = some (.decoded text))
      (bytes.wordAt offset) (offset + 4) := by
  refine Gives.bind gives_u4 fun _ => ?_
  generalize bytes.wordAt offset = index
  cases hstring : strings[index.toNat]? with
  | none => exact (Reader.gives_fail (a := index) _).congr (by simp) fun _ => rfl
  | some item =>
    cases item with
    | decoded text => exact (gives_pure index).congr (by simp) fun _ => rfl
    | raw units text => exact (Reader.gives_fail (a := index) _).congr (by simp) fun _ => rfl

theorem getElem?_table_eq_some_iff {α : Type} {width i : Nat} {value : Nat → α} {a : α} :
    (e.table width value).toArray[i]? = some a ↔
      i < e.size.toNat ∧ value (e.place width i) = a := by
  by_cases hi : i < e.size.toNat <;> simp [Extent.table, hi]

theorem gives_readTypes (strings : Extent) :
    (readTable e (readType (strings.table 4 (stringAt bytes)).toArray)).Gives bytes here
      (e.Each 4 (TypeStandsAt bytes strings)) (e.table 4 bytes.wordAt).toArray
      (e.place 4 e.size.toNat) := by
  refine (gives_readTable fun offset => gives_readType _ offset).congr ?_ fun _ => rfl
  simp only [getElem?_table_eq_some_iff, exists_and_left]
  rfl

theorem gives_readTables (hheader : Header.ofBytes bytes = h) :
    readTables.Gives bytes 0
      ((0x70 ≤ bytes.size ∧ isImage bytes = true ∧ bytes.wordAt 0x28 = 0x12345678) ∧
        h.strings.Each 4 (StringStandsAt bytes) ∧ h.types.Each 4 (TypeStandsAt bytes h.strings) ∧
        h.protos.Each 12 (ProtoRecord.StandsAt bytes) ∧
        h.fields.Each 8 (fun place => place + 8 ≤ bytes.size) ∧
        h.methods.Each 8 (fun place => place + 8 ≤ bytes.size))
      { ofHeader bytes h with classes := [] } (h.methods.place 8 h.methods.size.toNat) := by
  subst hheader
  refine Gives.congr (Gives.bind (Header.gives_read bytes) fun _ =>
    Gives.bind gives_readStrings fun _ => Gives.bind (gives_readTypes _) fun _ =>
    Gives.bind (gives_readTable (ProtoRecord.gives_read bytes)) fun _ =>
    Gives.bind (gives_readTable (FieldRecord.gives_read bytes)) fun _ =>
    Gives.bind (gives_readTable (MethodRecord.gives_read bytes)) fun _ => gives_pure _) ?_
    fun _ => rfl
  rw [and_true]

/-- Classes are read like the entries of a table. -/
theorem outcome_readClasses (first offset count : Nat) :
    (readClasses bytes first offset count).outcome =
      (Reader.forIndices (fun i => ClassRecord.reader.within (.classDef i)) first count bytes
        offset).map (·.1) := by
  induction count generalizing first offset with
  | zero => rfl
  | succ count ih =>
    have hhead : ((ClassRecord.read bytes offset).mapError (·.within (.classDef first))).outcome =
        ClassRecord.reader.within (.classDef first) bytes offset := rfl
    change (Logged.andThen _ _).outcome = (Reader.andThen _ _ bytes offset).map (·.1)
    rw [Logged.andThen, Reader.andThen, hhead]
    cases ClassRecord.reader.within (.classDef first) bytes offset with
    | error fault => rfl
    | ok x =>
      obtain ⟨record, after⟩ := x
      change (Logged.andThen (readClasses bytes (first + 1) after count) _).outcome =
        (Reader.andThen _ _ bytes after).map (·.1)
      rw [Logged.andThen, Reader.andThen, ih]
      cases Reader.forIndices (fun i => ClassRecord.reader.within (.classDef i)) (first + 1) count
        bytes after <;> rfl

theorem outcome_readClasses_eq_ok_iff {classes : List ClassRecord} :
    (readClasses bytes 0 e.offset.toNat e.size.toNat).outcome = .ok classes ↔
      e.Each 32 (ClassRecord.StandsAt bytes) ∧
        classes = e.table 32 (ClassRecord.ofOffset bytes) := by
  have hclasses : (Reader.forIndices (fun i => ClassRecord.reader.within (.classDef i)) 0
      e.size.toNat).Gives bytes e.offset.toNat (e.Each 32 (ClassRecord.StandsAt bytes))
      (e.table 32 (ClassRecord.ofOffset bytes)) (e.place 32 e.size.toNat) :=
    Gives.forIndices fun i _ => (ClassRecord.gives_reader bytes (e.place 32 i)).within _
  rw [outcome_readClasses]
  exact hclasses.map_eq_ok_iff

end Image
end DalvikLinkage
