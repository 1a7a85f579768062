import DalvikLinkage.Text.Utf8
import Mathlib.Tactic.SplitIfs

/-!
# The order of texts and the order of their bytes

Texts are compared character by character, and names in a file by their bytes in UTF-8. The two
orders are the same. The first byte of a character grows with its number and gives away how many
bytes follow; among characters with one first byte these have the rest of the number's digits, the
most significant first.

Results:
* `encodeChar_append_lt`: of two characters the smaller one has the smaller bytes, whatever follows;
* `encode_lt_encode_iff`, `compare_eq_lt_iff_encode_lt`: the order of texts is that of their bytes.
-/
namespace DalvikLinkage.Utf8

/-! ## Lists of bytes -/

theorem append_lt_append {l m : List UInt8} (hlen : l.length = m.length) (h : l < m)
    (s t : List UInt8) : l ++ s < m ++ t := by
  induction l generalizing m with
  | nil =>
    rw [List.eq_nil_of_length_eq_zero hlen.symm] at h
    exact absurd h (List.not_lt_nil [])
  | cons a l ih =>
    cases m with
    | nil => cases hlen
    | cons b m =>
      rcases List.cons_lt_cons_iff.1 h with hab | ⟨rfl, hlm⟩
      · exact List.cons_lt_cons_iff.2 (.inl hab)
      · exact List.cons_lt_cons_iff.2 (.inr ⟨rfl, ih (Nat.succ.inj hlen) hlm⟩)

theorem toUInt8_lt_iff {a b : Nat} (ha : a < 256) (hb : b < 256) :
    a.toUInt8 < b.toUInt8 ↔ a < b := by
  rw [UInt8.lt_iff_toNat_lt, UInt8.toNat_ofNat_of_lt' ha, UInt8.toNat_ofNat_of_lt' hb]

theorem toUInt8_inj {a b : Nat} (ha : a < 256) (hb : b < 256) :
    a.toUInt8 = b.toUInt8 ↔ a = b := by
  rw [← UInt8.toNat_inj, UInt8.toNat_ofNat_of_lt' ha, UInt8.toNat_ofNat_of_lt' hb]

/-! ## Characters -/

theorem toNat_lt (c : Char) : c.toNat < 0x110000 := by
  rcases c.valid with h | h
  · exact Nat.lt_trans h (by decide)
  · exact h.2

/-- The first byte of the character with that number. -/
def leadByte (n : Nat) : Nat :=
  if n < 0x80 then n
  else if n < 0x800 then 0xC0 + n / 64
  else if n < 0x10000 then 0xE0 + n / 4096
  else 0xF0 + n / 262144

theorem encodeChar_eq_cons (c : Char) :
    ∃ tail, encodeChar c = (leadByte c.toNat).toUInt8 :: tail := by
  simp only [encodeChar, leadByte]
  split_ifs <;> exact ⟨_, rfl⟩

theorem leadByte_mono {m n : Nat} (h : m ≤ n) : leadByte m ≤ leadByte n := by
  simp only [leadByte]
  split_ifs <;> omega

theorem leadByte_lt {n : Nat} (h : n < 0x110000) : leadByte n < 256 := by
  simp only [leadByte]
  split_ifs <;> omega

/-- Characters with one first byte have equally many bytes, and these are in the order of the
characters. -/
theorem encodeChar_lt_of_leadByte_eq {c d : Char} (h : c.toNat < d.toNat)
    (hlead : leadByte c.toNat = leadByte d.toNat) :
    (encodeChar c).length = (encodeChar d).length ∧ encodeChar c < encodeChar d := by
  have hd := toNat_lt d
  simp only [leadByte, encodeChar] at *
  generalize c.toNat = m at *
  generalize d.toNat = n at *
  -- One case is left for each length; in the others the first bytes differ.
  split_ifs at * <;> try omega
  all_goals
    refine ⟨rfl, ?_⟩
    simp (disch := omega) only [List.cons_lt_cons_iff, toUInt8_lt_iff, toUInt8_inj]
    omega

theorem encodeChar_append_lt {c d : Char} (h : c < d) (s t : List UInt8) :
    encodeChar c ++ s < encodeChar d ++ t := by
  have hlt : c.toNat < d.toNat := h
  rcases Nat.lt_or_eq_of_le (leadByte_mono (Nat.le_of_lt hlt)) with hlead | hlead
  · obtain ⟨ctail, hc⟩ := encodeChar_eq_cons c
    obtain ⟨dtail, hd⟩ := encodeChar_eq_cons d
    have hbyte := leadByte_lt (toNat_lt d)
    rw [hc, hd, List.cons_append, List.cons_append]
    exact List.cons_lt_cons_iff.2 (.inl ((toUInt8_lt_iff (by omega) hbyte).2 hlead))
  · obtain ⟨hlen, hbytes⟩ := encodeChar_lt_of_leadByte_eq hlt hlead
    exact append_lt_append hlen hbytes s t

/-! ## Texts -/

theorem encode_cons (c : Char) (cs : List Char) : encode (c :: cs) = encodeChar c ++ encode cs :=
  List.flatMap_cons

theorem encode_lt_encode {a b : List Char} (h : a < b) : encode a < encode b := by
  induction a generalizing b with
  | nil =>
    cases b with
    | nil => exact absurd h (List.not_lt_nil [])
    | cons d b =>
      obtain ⟨tail, hd⟩ := encodeChar_eq_cons d
      rw [encode_cons, hd]
      exact List.nil_lt_cons _ _
  | cons c a ih =>
    cases b with
    | nil => exact absurd h (List.not_lt_nil _)
    | cons d b =>
      rw [encode_cons, encode_cons]
      rcases List.cons_lt_cons_iff.1 h with hcd | ⟨rfl, hab⟩
      · exact encodeChar_append_lt hcd _ _
      · exact List.append_left_lt (ih hab)

/-- Texts are in the order of their bytes. -/
theorem encode_lt_encode_iff {a b : List Char} : encode a < encode b ↔ a < b := by
  refine ⟨fun h => ?_, encode_lt_encode⟩
  rcases Std.lt_trichotomy a b with hab | rfl | hba
  · exact hab
  · exact absurd h (List.lt_irrefl _)
  · exact absurd h (List.lt_asymm (encode_lt_encode hba))

theorem compare_eq_lt_iff_encode_lt {a b : String} :
    compare a b = .lt ↔ encode a.toList < encode b.toList := by
  rw [encode_lt_encode_iff, ← String.lt_iff]
  exact compareOfLessAndEq_eq_lt

end DalvikLinkage.Utf8
