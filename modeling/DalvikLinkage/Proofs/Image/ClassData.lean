import DalvikLinkage.Image.ClassData
import DalvikLinkage.Proofs.Bytes.Uleb128

/-!
# Class data is read as it was written

The lists of class data have entries of any length, and nothing but the counts at the start says
where one ends. Indices are written as differences, so reading an entry depends on the one before,
and each list begins at zero again. All indices and flags are allowed: the indices of a list need
not ascend, since differences are taken modulo 2^32.

Results:
* `decodes_readFields`, `decodes_readMethods`: a list is read back after any index;
* `read_encode`: class data is read back, wherever it stands.
-/
namespace DalvikLinkage.ClassData

/-- Adding the difference leads back to the index. -/
theorem add_difference (previous index : UInt32) : previous + (index - previous) = index := by
  rw [UInt32.add_comm, UInt32.sub_add_cancel]

theorem decodes_readFields (fields : List DeclaredField) (previous : UInt32) :
    (readFields previous fields.length).Decodes (encodeFields previous fields) fields := by
  induction fields generalizing previous with
  | nil => exact Reader.decodes_pure []
  | cons f rest ih =>
    rw [encodeFields, List.append_assoc]
    refine (Uleb128.decodes_encode_toNat (f.index - previous)).bind ?_
    refine (Uleb128.decodes_encode_toNat f.flags.bits).bind ?_
    rw [add_difference]
    exact (ih f.index).bind_pure fun rest => f :: rest

theorem decodes_readMethods (methods : List DeclaredMethod) (previous : UInt32) :
    (readMethods previous methods.length).Decodes (encodeMethods previous methods) methods := by
  induction methods generalizing previous with
  | nil => exact Reader.decodes_pure []
  | cons m rest ih =>
    rw [encodeMethods, List.append_assoc, List.append_assoc]
    refine (Uleb128.decodes_encode_toNat (m.index - previous)).bind ?_
    refine (Uleb128.decodes_encode_toNat m.flags.bits).bind ?_
    refine (Uleb128.decodes_encode_toNat m.codeOffset).bind ?_
    rw [add_difference]
    exact (ih m.index).bind_pure fun rest => m :: rest

/-- A list of fewer than 2^32 entries is as long as its written length says. -/
theorem toNat_length {α : Type} {entries : List α} (h : entries.length < 2 ^ 32) :
    entries.length.toUInt32.toNat = entries.length :=
  UInt32.toNat_ofNat_of_lt' h

/-- **Class data is read as it was written.** Whatever bytes stand before and after it, reading
gives the same four lists and ends right after them. -/
theorem read_encode (d : ClassData) (before rest : List UInt8)
    (hstatic : d.staticFields.length < 2 ^ 32) (hinstance : d.instanceFields.length < 2 ^ 32)
    (hdirect : d.directMethods.length < 2 ^ 32) (hvirtual : d.virtualMethods.length < 2 ^ 32) :
    read (before ++ encode d ++ rest).toArray before.length =
      .ok (d, before.length + (encode d).length) := by
  suffices h : read.Decodes (encode d) d from h before rest
  rw [encode]
  simp only [List.append_assoc]
  refine (Uleb128.decodes_encode hstatic).bind ?_
  refine (Uleb128.decodes_encode hinstance).bind ?_
  refine (Uleb128.decodes_encode hdirect).bind ?_
  refine (Uleb128.decodes_encode hvirtual).bind ?_
  rw [toNat_length hstatic, toNat_length hinstance, toNat_length hdirect, toNat_length hvirtual]
  refine (decodes_readFields d.staticFields 0).bind ?_
  refine (decodes_readFields d.instanceFields 0).bind ?_
  refine (decodes_readMethods d.directMethods 0).bind ?_
  exact (decodes_readMethods d.virtualMethods 0).bind_pure fun virtualMethods =>
    { d with virtualMethods }

/-- Indices that do not ascend, flags without a meaning and an offset with all bits set. -/
def descending : ClassData where
  staticFields := [⟨5, ⟨0x9⟩⟩, ⟨2, ⟨0xfffffff0⟩⟩, ⟨2, ⟨0⟩⟩]
  instanceFields := []
  directMethods := [⟨0xffffffff, ⟨0x10001⟩, 0xffffffff⟩, ⟨0, ⟨0x80000000⟩, 0⟩]
  virtualMethods := [⟨300, ⟨1⟩, 0x1000⟩]

theorem read_encode_descending :
    (descending.staticFields.length < 2 ^ 32 ∧ descending.instanceFields.length < 2 ^ 32 ∧
      descending.directMethods.length < 2 ^ 32 ∧ descending.virtualMethods.length < 2 ^ 32) ∧
    read ([0xff, 0x80] ++ encode descending ++ [0x80, 0]).toArray 2 =
      .ok (descending, 2 + (encode descending).length) :=
  ⟨by decide, read_encode descending [0xff, 0x80] [0x80, 0] (by decide) (by decide) (by decide)
    (by decide)⟩

end DalvikLinkage.ClassData
