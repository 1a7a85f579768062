import DalvikLinkage.Proofs.Bytes.Appending
import DalvikLinkage.Proofs.Image.Layout
import DalvikLinkage.Proofs.Outcome

/-!
# An image with more bytes behind it

A raw image in a file may be longer than its header says. Everything that an image insists on is
there to be read whatever follows, so bytes behind an image change nothing about its tables. The one
thing that an image does without is class data that cannot be read: if it was cut off, more bytes can
complete it. Class data that was read stays what it was, and so does class data with any other fault.

Results:
* `settled_readTables`: the tables are settled;
* `ClassRecord.persists_reader`: a class stays the same but for class data that was cut off;
* `ofBytes_append`: what bytes behind an image do to it.
-/
namespace DalvikLinkage

open Reader (Persists Settled settled_u2 settled_u4 settled_pure settled_fail settled_seek
  settled_take persists_pure)

variable {bytes tail : Bytes}

/-! ## Items -/

namespace ClassData

theorem settled_readFields (previous : UInt32) (count : Nat) :
    Settled bytes tail (readFields previous count) := by
  induction count generalizing previous with
  | zero => exact settled_pure []
  | succ count ih =>
    refine Uleb128.settled_read.bind fun difference => ?_
    refine Uleb128.settled_read.bind fun _ => ?_
    exact (ih (previous + difference)).bind fun _ => settled_pure _

theorem settled_readMethods (previous : UInt32) (count : Nat) :
    Settled bytes tail (readMethods previous count) := by
  induction count generalizing previous with
  | zero => exact settled_pure []
  | succ count ih =>
    refine Uleb128.settled_read.bind fun difference => ?_
    refine Uleb128.settled_read.bind fun _ => ?_
    refine Uleb128.settled_read.bind fun _ => ?_
    exact (ih (previous + difference)).bind fun _ => settled_pure _

theorem settled_read : Settled bytes tail read := by
  refine Uleb128.settled_read.bind fun staticCount => ?_
  refine Uleb128.settled_read.bind fun instanceCount => ?_
  refine Uleb128.settled_read.bind fun directCount => ?_
  refine Uleb128.settled_read.bind fun virtualCount => ?_
  refine (settled_readFields 0 staticCount.toNat).bind fun _ => ?_
  refine (settled_readFields 0 instanceCount.toNat).bind fun _ => ?_
  refine (settled_readMethods 0 directCount.toNat).bind fun _ => ?_
  exact (settled_readMethods 0 virtualCount.toNat).bind fun _ => settled_pure _

end ClassData

theorem StringItem.settled_read : Settled bytes tail read :=
  Uleb128.settled_read.bind fun _ => Reader.settled_untilNul.bind fun _ => settled_pure _

theorem TypeList.settled_readAt (offset : UInt32) : Settled bytes tail (readAt offset) := by
  unfold readAt
  split
  · exact settled_pure []
  · exact (settled_u4.bind fun count => settled_u2.times count.toNat).elsewhere offset.toNat

theorem ProtoRecord.settled_read : Settled bytes tail read := by
  refine settled_u4.bind fun _ => settled_u4.bind fun _ => settled_u4.bind fun offset => ?_
  exact (TypeList.settled_readAt offset).bind fun _ => settled_pure _

theorem FieldRecord.settled_read : Settled bytes tail read :=
  settled_u2.bind fun _ => settled_u2.bind fun _ => settled_u4.bind fun _ => settled_pure _

theorem MethodRecord.settled_read : Settled bytes tail read :=
  settled_u2.bind fun _ => settled_u2.bind fun _ => settled_u4.bind fun _ => settled_pure _

/-! ## The header -/

theorem Extent.settled_read : Settled bytes tail read :=
  settled_u4.bind fun _ => settled_u4.bind fun _ => settled_pure _

namespace Header

/-- The magic is looked for in bytes that are long enough for a header, so its bytes are there. -/
theorem settled_expectMagic : Settled bytes tail expectMagic := by
  intro offset
  unfold expectMagic
  by_cases hsize : bytes.size < offset + length
  · rw [if_pos hsize]
    exact .inl trivial
  · have hsize' : ¬(bytes ++ tail).size < offset + length := by
      rw [Array.size_append]
      omega
    have hmagic : isImageAt (bytes ++ tail) offset = isImageAt bytes offset :=
      isImageAt_congr fun i hi =>
        Array.getElem?_append_left (by simp only [length] at hsize; omega)
    rw [if_neg hsize, if_neg hsize', hmagic]
    cases isImageAt bytes offset with
    | false => exact .inr rfl
    | true => exact ⟨_, rfl, rfl, rfl⟩

theorem settled_read : Settled bytes tail read := by
  refine settled_expectMagic.bind fun _ => (settled_take 8).bind fun _ => ?_
  refine settled_u4.bind fun _ => (settled_take 20).bind fun _ => settled_u4.bind fun _ => ?_
  refine settled_u4.bind fun _ => settled_u4.bind fun tag => ?_
  refine Extent.settled_read.bind fun _ => settled_u4.bind fun _ => ?_
  refine Extent.settled_read.bind fun _ => Extent.settled_read.bind fun _ => ?_
  refine Extent.settled_read.bind fun _ => Extent.settled_read.bind fun _ => ?_
  refine Extent.settled_read.bind fun _ => Extent.settled_read.bind fun _ => ?_
  refine Extent.settled_read.bind fun _ => ?_
  split
  · exact settled_fail _
  · exact settled_pure _

end Header

/-! ## Classes -/

/-- The class data could not be read because `size` bytes end before it does. -/
def ClassDataState.CutOff (size : Nat) (state : ClassDataState) : Prop :=
  ∃ fault, state = .unreadable fault ∧ fault.PastEnd size

theorem ClassDataState.ofOffset_append (bytes tail : Bytes) (offset : UInt32) :
    ofOffset (bytes ++ tail) offset = ofOffset bytes offset ∨
      (ofOffset bytes offset).CutOff bytes.size := by
  unfold ofOffset
  split
  · exact .inl rfl
  · have hread := (ClassData.settled_read : Settled bytes tail ClassData.read) offset.toNat
    cases h : ClassData.read bytes offset.toNat with
    | ok x =>
      rw [h] at hread
      obtain ⟨y, hy, hvalue, -⟩ := hread
      simp only [hy, hvalue, true_or]
    | error fault =>
      rw [h] at hread
      obtain hend | hsame := hread
      · exact .inr ⟨fault, rfl, hend⟩
      · simp only [hsame, true_or]

/-- One record of a class goes on as another one when more bytes follow the `size` that there were:
all of it is the same, but for class data that was cut off. -/
structure ClassRecord.Continues (size : Nat) (c c' : ClassRecord) : Prop where
  rest : { c' with data := c.data } = c
  data : c'.data = c.data ∨ c.data.CutOff size

namespace ClassRecord

theorem Continues.present {size : Nat} {c c' : ClassRecord} {data : ClassData}
    (h : c.Continues size c') (hdata : c.data = .present data) : c'.data = .present data := by
  obtain hsame | ⟨fault, hfault, -⟩ := h.data
  · rw [hsame, hdata]
  · rw [hdata] at hfault
    cases hfault

theorem persists_readFront :
    Persists bytes tail (Continues bytes.size) readFront readFront := by
  refine settled_u4.bind fun _ => settled_u4.bind fun _ => settled_u4.bind fun _ => ?_
  refine settled_u4.bind fun interfaces => (TypeList.settled_readAt interfaces).bind fun _ => ?_
  refine settled_u4.bind fun _ => settled_u4.bind fun _ => settled_u4.bind fun offset => ?_
  have hdata : Persists bytes tail
      (fun before after => after = before ∨ before.CutOff bytes.size)
      (ClassDataState.readAt offset) (ClassDataState.readAt offset) :=
    fun _ => ⟨_, rfl, ClassDataState.ofOffset_append bytes tail offset, rfl⟩
  exact hdata.bind fun _ _ hstate => persists_pure ⟨rfl, hstate⟩

theorem persists_reader : Persists bytes tail (Continues bytes.size) reader reader := by
  rw [reader_eq]
  refine persists_readFront.bind fun _ _ hrecord => ?_
  exact settled_u4.bind fun _ => persists_pure hrecord

end ClassRecord

/-! ## Images -/

namespace Image

theorem settled_readString (index : Nat) : Settled bytes tail (readString index) :=
  settled_u4.bind fun offset => (StringItem.settled_read.within _).elsewhere offset.toNat

theorem settled_readType (strings : Array StringItem) :
    Settled bytes tail (readType strings) := by
  refine settled_u4.bind fun index => ?_
  split
  · exact settled_pure _
  · exact settled_fail _
  · exact settled_fail _

theorem settled_readTable {α : Type} {record : Reader α} (h : Settled bytes tail record)
    (extent : Extent) : Settled bytes tail (readTable extent record) :=
  (settled_seek _).bind fun _ => (h.times _).bind fun _ => settled_pure _

theorem settled_readStrings (extent : Extent) : Settled bytes tail (readStrings extent) :=
  (settled_seek _).bind fun _ =>
    (Settled.forIndices settled_readString 0 _).bind fun _ => settled_pure _

theorem settled_readTables : Settled bytes tail readTables := by
  refine Header.settled_read.bind fun header => ?_
  refine (settled_readStrings header.strings).bind fun strings => ?_
  refine (settled_readTable (settled_readType strings) header.types).bind fun _ => ?_
  refine (settled_readTable ProtoRecord.settled_read header.protos).bind fun _ => ?_
  refine (settled_readTable FieldRecord.settled_read header.fields).bind fun _ => ?_
  refine (settled_readTable MethodRecord.settled_read header.methods).bind fun _ => ?_
  exact settled_pure _

theorem outlasts_readClasses (bytes tail : Bytes) (first offset count : Nat) :
    Outlasts bytes.size (List.Forall₂ (ClassRecord.Continues bytes.size))
      (readClasses bytes first offset count).outcome
      (readClasses (bytes ++ tail) first offset count).outcome := by
  rw [outcome_readClasses, outcome_readClasses]
  have hclass (i : Nat) : Persists bytes tail (ClassRecord.Continues bytes.size)
      (ClassRecord.reader.within (.classDef i)) (ClassRecord.reader.within (.classDef i)) :=
    ClassRecord.persists_reader.within (.classDef i)
  exact (Persists.forIndices hclass first count offset).map fun _ _ h => h.1

/-- **Bytes behind an image that can be read change nothing in it but class data that was cut off.**
The image is read again, with the same header, strings, types, prototypes, fields and methods, and
with the same classes one for one. The class data of a class can only become another one if it ran
past the end before, and class data that was there stays. -/
theorem ofBytes_append (bytes tail : Bytes) (image : Image)
    (h : (ofBytes bytes).outcome = .ok image) :
    ∃ image', (ofBytes (bytes ++ tail)).outcome = .ok image' ∧
      { image' with classes := image.classes } = image ∧
      List.Forall₂ (fun c c' => c.Continues bytes.size c' ∧
        ∀ data, c.data = .present data → c'.data = .present data)
        image.classes image'.classes := by
  unfold ofBytes at h
  simp only [Logged.outcome_bind_eq_ok_iff, Logged.outcome_of, Logged.outcome_pure,
    Except.ok.injEq] at h
  obtain ⟨⟨tables, after⟩, htables, classes, hclasses, rfl⟩ := h
  have htables' := (settled_readTables : Settled bytes tail readTables) 0
  rw [htables] at htables'
  obtain ⟨⟨_, _⟩, htables', rfl, -⟩ := htables'
  have hclasses' := outlasts_readClasses bytes tail 0 tables.header.classes.offset.toNat
    tables.header.classes.size.toNat
  rw [hclasses] at hclasses'
  obtain ⟨classes', hclasses', hcontinue⟩ := hclasses'
  refine ⟨{ tables with classes := classes' }, ?_, rfl,
    hcontinue.imp fun _ _ hc => ⟨hc, fun _ => hc.present⟩⟩
  unfold ofBytes
  simp only [Logged.outcome_bind_eq_ok_iff, Logged.outcome_of, Logged.outcome_pure,
    Except.ok.injEq]
  exact ⟨_, htables', classes', hclasses', rfl⟩

/-- An image of two classes, the first with empty class data and the second with class data that
ends where the index of its only field should stand. -/
def cutOff : Bytes :=
  ([0x64, 0x65, 0x78, 0x0a, 0x30, 0x33, 0x35, 0] ++ List.replicate 32 0 ++
    Bytes.fourOf 0x12345678 ++ List.replicate 52 0 ++ Bytes.fourOf 2 ++ Bytes.fourOf 112 ++
    List.replicate 8 0 ++
    List.replicate 24 0 ++ Bytes.fourOf 176 ++ List.replicate 4 0 ++
    List.replicate 24 0 ++ Bytes.fourOf 180 ++ List.replicate 4 0 ++
    [0, 0, 0, 0] ++ [1, 0, 0, 0]).toArray

theorem ofBytes_append_cutOff :
    ∃ image image', (ofBytes cutOff).outcome = .ok image ∧
      (ofBytes (cutOff ++ #[5, 1])).outcome = .ok image' ∧
      { image' with classes := image.classes } = image ∧
      image.classes.map (·.data.data?) = [some ⟨[], [], [], []⟩, none] ∧
      image'.classes.map (·.data.data?) =
        [some ⟨[], [], [], []⟩, some ⟨[⟨5, ⟨1⟩⟩], [], [], []⟩] := by
  obtain ⟨image, himage⟩ : ∃ image, (ofBytes cutOff).outcome = .ok image :=
    exists_of_isSome_toOption (by decide +kernel)
  obtain ⟨image', himage', hrest, -⟩ := ofBytes_append cutOff #[5, 1] image himage
  have hbefore : ((ofBytes cutOff).outcome.toOption.map fun i => i.classes.map (·.data.data?)) =
      some [some ⟨[], [], [], []⟩, none] := by decide +kernel
  have hafter : ((ofBytes (cutOff ++ #[5, 1])).outcome.toOption.map fun i =>
      i.classes.map (·.data.data?)) =
      some [some ⟨[], [], [], []⟩, some ⟨[⟨5, ⟨1⟩⟩], [], [], []⟩] := by decide +kernel
  rw [himage] at hbefore
  rw [himage'] at hafter
  exact ⟨image, image', himage, himage', hrest, Option.some.inj hbefore, Option.some.inj hafter⟩

end Image
end DalvikLinkage
