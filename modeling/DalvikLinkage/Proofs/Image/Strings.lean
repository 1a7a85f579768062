import DalvikLinkage.Image.StringItem
import DalvikLinkage.Proofs.Bytes.Uleb128
import DalvikLinkage.Proofs.Text.ModifiedUtf8
import Mathlib.Data.List.TakeWhile

/-!
# String data is kept or decoded, never changed

The bytes of a string item end at the first zero byte, whatever the count of units before them says.
They stand for a text if they are its bytes in one of the two encodings, and then for one text only,
since where the encodings overlap they agree. So the order in which reading tries them does not
matter, and bytes that stand for no text are kept with their count. Modified UTF-8 writes no zero
byte, so every text has an item that is read back as it.

Results:
* `standsFor_unique`: bytes stand for one text at most;
* `decode?_eq_some_iff`: decoding finds the text that bytes stand for;
* `read_encodeRaw`: what is read from any item.
-/
namespace DalvikLinkage

variable {data : List UInt8} {cs : List Char} {text other : String} {units : UInt32}

/-! ## The end of the data -/

theorem Bytes.untilZero_append (h : 0 ∉ data) (rest : List UInt8) :
    untilZero (data ++ 0 :: rest) = data := by
  have hdata : ∀ b ∈ data, (b != 0) = true := fun b hb =>
    bne_iff_ne.2 (ne_of_mem_of_not_mem hb h)
  rw [untilZero, List.takeWhile_append_of_pos hdata, List.takeWhile_cons_of_neg (by decide),
    List.append_nil]

theorem Reader.decodes_untilNul (h : 0 ∉ data) : untilNul.Decodes (data ++ [0]) data.toArray := by
  intro before rest
  have hdrop : (before ++ (data ++ [0]) ++ rest).toArray.toList.drop before.length =
      data ++ 0 :: rest := by
    simp
  have hread : untilNul.Gives (before ++ (data ++ [0]) ++ rest).toArray before.length _ _ _ :=
    gives_untilNul
  rw [hdrop, Bytes.untilZero_append h] at hread
  rw [hread.eq_ok (by simp), List.length_append, List.length_singleton, Nat.add_assoc]

namespace StringItem

/-! ## Texts that bytes stand for -/

/-- The bytes are those of the text, in UTF-8 or in modified UTF-8. -/
def StandsFor (data : List UInt8) (text : String) : Prop :=
  data = Utf8.encode text.toList ∨ data = ModifiedUtf8.encode text.toList

theorem decode?_eq_some_iff (h : 0 ∉ data) :
    decode? data = some cs ↔ data = Utf8.encode cs ∨ data = ModifiedUtf8.encode cs := by
  rw [decode?, Option.or_eq_some_iff, ModifiedUtf8.decode?_eq_some_iff h,
    ← Utf8.decode?_eq_some_iff]
  refine or_congr_right' fun hutf => and_iff_right_of_imp fun hdata => ?_
  cases hother : Utf8.decode? data with
  | none => rfl
  | some ds =>
    have he : ds = cs := ModifiedUtf8.eq_of_utf8_decode?_encode (hdata ▸ hother)
    exact absurd (he ▸ hother) hutf

/-- Decoding is a function of the bytes, so they stand for one text at most. -/
theorem standsFor_unique (h : 0 ∉ data) (htext : StandsFor data text)
    (hother : StandsFor data other) : text = other := by
  have he := ((decode?_eq_some_iff h).2 htext).symm.trans ((decode?_eq_some_iff h).2 hother)
  exact String.toList_inj.1 (Option.some.inj he)

theorem ofBytes_eq_decoded_iff (h : 0 ∉ data) :
    ofBytes units data = .decoded text ↔ StandsFor data text := by
  rw [StandsFor, ← decode?_eq_some_iff h, ofBytes]
  cases decode? data with
  | none => simp
  | some cs => simp [← String.toList_inj]

theorem ofBytes_eq_raw_iff (h : 0 ∉ data) :
    ofBytes units data = .raw units data ↔ ∀ text, ¬StandsFor data text := by
  constructor
  · intro hraw text htext
    rw [(ofBytes_eq_decoded_iff h).2 htext] at hraw
    cases hraw
  · intro hnone
    rw [ofBytes]
    split
    · next cs hcs =>
      refine absurd ?_ (hnone (String.ofList cs))
      rwa [StandsFor, String.toList_ofList, ← decode?_eq_some_iff h]
    · rfl

/-! ## Items -/

theorem decodes_read {count : Nat} (hcount : count < 2 ^ 35) (h : 0 ∉ data) :
    read.Decodes (encodeRaw count data) (ofBytes count.toUInt32 data) := by
  rw [encodeRaw, List.append_assoc]
  exact (Uleb128.decodes_encode_of_lt hcount).bind
    ((Reader.decodes_untilNul h).bind_pure fun bytes => ofBytes count.toUInt32 bytes.toList)

/-- The item of a text, with any count of units. -/
theorem decodes_read_text {count : Nat} (hcount : count < 2 ^ 35) (text : String) :
    read.Decodes (encodeRaw count (ModifiedUtf8.encode text.toList)) (.decoded text) := by
  have hzero := ModifiedUtf8.zero_notMem_encode text.toList
  have hitem : ofBytes count.toUInt32 (ModifiedUtf8.encode text.toList) = .decoded text :=
    (ofBytes_eq_decoded_iff hzero).2 (.inr rfl)
  rw [← hitem]
  exact decodes_read hcount hzero

/-- **An item is read as the text that its bytes stand for, and kept as it is if there is none.** It
may have any bytes before and behind it; the count of units does not matter, and reading ends just
behind the zero byte. In modified UTF-8 every text can stand in an item. -/
theorem read_encodeRaw :
    (∀ (units : UInt32) (data : List UInt8), 0 ∉ data →
      ∃ item, read.Decodes (encodeRaw units.toNat data) item ∧
        (∀ text, item = .decoded text ↔ StandsFor data text) ∧
        (item = .raw units data ↔ ∀ text, ¬StandsFor data text)) ∧
    ∀ text : String, 0 ∉ ModifiedUtf8.encode text.toList ∧
      (∀ units : UInt32,
        read.Decodes (encodeRaw units.toNat (ModifiedUtf8.encode text.toList)) (.decoded text)) ∧
      (ModifiedUtf8.units text.toList < 2 ^ 35 →
        read.Decodes (encode text.toList) (.decoded text)) := by
  have hcount (units : UInt32) : units.toNat < 2 ^ 35 := Nat.lt_trans units.toNat_lt (by decide)
  refine ⟨fun units data h => ⟨ofBytes units data, ?_, fun text => ofBytes_eq_decoded_iff h,
    ofBytes_eq_raw_iff h⟩, fun text => ⟨ModifiedUtf8.zero_notMem_encode text.toList,
    fun units => decodes_read_text (hcount units) text, fun h => decodes_read_text h text⟩⟩
  simpa using decodes_read (hcount units) h

/-- A text with U+0000 and a surrogate pair in it, and bytes that end within such a pair. -/
theorem read_encodeRaw_mixed :
    read.Decodes (encodeRaw 5 [0x61, 0xC0, 0x80, 0xC3, 0xA9, 0xED, 0xA0, 0xBD, 0xED, 0xB8, 0x80])
        (.decoded "a\x00é😀") ∧
      read.Decodes (encodeRaw 2 [0x41, 0xED, 0xA0, 0xBD]) (.raw 2 [0x41, 0xED, 0xA0, 0xBD]) := by
  constructor
  · have hdata : ModifiedUtf8.encode "a\x00é😀".toList =
        [0x61, 0xC0, 0x80, 0xC3, 0xA9, 0xED, 0xA0, 0xBD, 0xED, 0xB8, 0x80] := by decide
    exact hdata ▸ (read_encodeRaw.2 "a\x00é😀").2.1 5
  · obtain ⟨item, hread, -, hraw⟩ := read_encodeRaw.1 2 [0x41, 0xED, 0xA0, 0xBD] (by decide)
    have hnone : ∀ text, ¬StandsFor [0x41, 0xED, 0xA0, 0xBD] text := by
      intro text htext
      have hdecoded := (decode?_eq_some_iff (by decide)).2 htext
      simp [decode?, Utf8.decode?, ModifiedUtf8.decode?, Utf8.head, ModifiedUtf8.head?,
        Utf8.mayFollow, Utf8.isContinuation, ModifiedUtf8.isHighHalf] at hdecoded
    rw [hraw.2 hnone] at hread
    exact hread

end StringItem
end DalvikLinkage
