import DalvikLinkage.Bytes.Uleb128
import DalvikLinkage.Proofs.Bytes.Reading
import Mathlib.Data.Nat.Digits.Defs

/-!
# Numbers of variable length

The bytes of a number are digits to the base 128, the least significant first, of which all but the
last are marked. Reading goes by the marks: it takes the digits up to the first one without a mark,
if these are at most five, and gives their value modulo 2^32. A number can have several forms, since
digits of value zero may end it; writing gives the shortest.

Results:
* `gives_read`: what is read at a place;
* `decodes_read`: the digits of a number are read as their value, wherever they stand;
* `isNumber_encode`, `value_encode`, `length_encode_le`: what is written for a number.
-/
namespace DalvikLinkage.Uleb128

/-- The digits of one number: all but the last announce another one. -/
inductive IsNumber : List UInt8 → Prop
  | last {b : UInt8} (h : continues b = false) : IsNumber [b]
  | more {b : UInt8} {digits : List UInt8} (h : continues b = true) (hrest : IsNumber digits) :
    IsNumber (b :: digits)

/-- The number that digits make. -/
def value (digits : List UInt8) : Nat :=
  Nat.ofDigits 128 (digits.map fun b => b.toNat % 128)

/-- The bytes start with the digits of a number, of which there are at most `limit`. -/
def StartsNumber (limit : Nat) (bytes : List UInt8) : Prop :=
  ∃ digits rest, bytes = digits ++ rest ∧ IsNumber digits ∧ digits.length ≤ limit

/-- The digits at the start: the bytes that announce another one, and the next. -/
def lead : List UInt8 → List UInt8
  | [] => []
  | b :: rest => if continues b then b :: lead rest else [b]

variable {limit : Nat} {b : UInt8} {digits rest : List UInt8}

theorem value_cons (b : UInt8) (digits : List UInt8) :
    value (b :: digits) = b.toNat % 128 + 128 * value digits := by
  simp [value, Nat.ofDigits_cons]

theorem lead_append (h : IsNumber digits) (rest : List UInt8) : lead (digits ++ rest) = digits := by
  induction h with
  | last h => simp [lead, h]
  | more h _ ih => simp [lead, h, ih]

theorem IsNumber.length_pos (h : IsNumber digits) : 0 < digits.length := by
  cases h <;> simp

theorem not_startsNumber_zero (bytes : List UInt8) : ¬StartsNumber 0 bytes := by
  rintro ⟨digits, rest, -, h, hlength⟩
  have := h.length_pos
  omega

theorem not_startsNumber_nil : ¬StartsNumber limit [] := by
  rintro ⟨digits, rest, hbytes, h, -⟩
  have := h.length_pos
  have := congrArg List.length hbytes
  simp only [List.length_nil, List.length_append] at this
  omega

theorem startsNumber_cons_of_continues (h : continues b = true) :
    StartsNumber (limit + 1) (b :: rest) ↔ StartsNumber limit rest := by
  constructor
  · rintro ⟨digits, after, hbytes, hnumber, hlength⟩
    cases hnumber with
    | last hb =>
      obtain ⟨rfl, -⟩ := List.cons.inj hbytes
      rw [h] at hb
      cases hb
    | @more _ digits hb hrest =>
      exact ⟨digits, after, (List.cons.inj hbytes).2, hrest, Nat.le_of_succ_le_succ hlength⟩
  · rintro ⟨digits, after, rfl, hnumber, hlength⟩
    exact ⟨b :: digits, after, rfl, .more h hnumber, Nat.succ_le_succ hlength⟩

theorem startsNumber_cons_of_not_continues (h : continues b = false) :
    StartsNumber (limit + 1) (b :: rest) :=
  ⟨[b], rest, rfl, .last h, Nat.succ_le_succ (Nat.zero_le _)⟩

/-! ## Reading -/

theorem toNat_payload (b : UInt8) : (payload b).toNat = b.toNat % 128 := by
  have hmask : (0x7f : UInt8).toNat = 2 ^ 7 - 1 := rfl
  rw [payload, UInt8.toNat_toUInt32, UInt8.toNat_and, hmask, Nat.and_two_pow_sub_one_eq_mod]

/-- One more digit, in arithmetic modulo 2^32. -/
theorem payload_add (b : UInt8) (n : Nat) :
    payload b + 128 * n.toUInt32 = (b.toNat % 128 + 128 * n).toUInt32 := by
  apply UInt32.toNat_inj.1
  have hbase : (128 : UInt32).toNat = 128 := rfl
  simp only [UInt32.toNat_add, UInt32.toNat_mul, toNat_payload, hbase, Nat.toUInt32_eq,
    UInt32.toNat_ofNat']
  omega

theorem payload_eq (b : UInt8) : payload b = (b.toNat % 128).toUInt32 := by
  simpa using payload_add b 0

theorem gives_readWithin (limit : Nat) (bytes : Bytes) (offset : Nat) :
    (readWithin limit).Gives bytes offset (StartsNumber limit (bytes.toList.drop offset))
      (value (lead (bytes.toList.drop offset))).toUInt32
      (offset + (lead (bytes.toList.drop offset)).length) := by
  induction limit generalizing offset with
  | zero =>
    intro x
    simp [readWithin, not_startsNumber_zero]
  | succ limit ih =>
    cases hdrop : bytes.toList.drop offset with
    | nil =>
      have hnone : (readWithin (limit + 1)).Gives bytes offset (False ∧ False)
          (value (lead [])).toUInt32 (offset + (lead []).length) :=
        Reader.Gives.bind (Reader.gives_u1_of_drop_eq_nil hdrop) False.elim
      exact hnone.congr (by simp [not_startsNumber_nil]) fun _ => rfl
    | cons b rest =>
      have hrest : bytes.toList.drop (offset + 1) = rest := by
        rw [← List.drop_drop, hdrop, List.drop_one, List.tail_cons]
      have hfirst := Reader.gives_u1_of_drop_eq_cons hdrop
      cases hb : continues b with
      | true =>
        have hnumber := ih (offset + 1)
        rw [hrest] at hnumber
        have hmore : (if continues b = true then do return payload b + 128 * (← readWithin limit)
            else pure (payload b)).Gives bytes (offset + 1) (StartsNumber limit rest ∧ True)
            (payload b + 128 * (value (lead rest)).toUInt32) (offset + 1 + (lead rest).length) := by
          rw [if_pos hb]
          exact hnumber.bind fun _ => Reader.gives_pure _
        rw [lead, if_pos hb, value_cons, ← payload_add, List.length_cons,
          Nat.add_comm (lead rest).length, ← Nat.add_assoc]
        refine Reader.Gives.congr (Reader.Gives.bind hfirst fun _ => hmore) ?_ fun _ => rfl
        rw [startsNumber_cons_of_continues hb, true_and, and_true]
      | false =>
        have hlast : (if continues b = true then do return payload b + 128 * (← readWithin limit)
            else pure (payload b)).Gives bytes (offset + 1) True (payload b) (offset + 1) := by
          rw [if_neg (ne_true_of_eq_false hb)]
          exact Reader.gives_pure _
        have hone : payload b = (value [b]).toUInt32 := payload_eq b
        rw [lead, if_neg (ne_true_of_eq_false hb), ← hone]
        refine Reader.Gives.congr (Reader.Gives.bind hfirst fun _ => hlast) ?_ fun _ => rfl
        exact iff_of_true ⟨trivial, trivial⟩ (startsNumber_cons_of_not_continues hb)

theorem gives_read (bytes : Bytes) (offset : Nat) :
    read.Gives bytes offset (StartsNumber 5 (bytes.toList.drop offset))
      (value (lead (bytes.toList.drop offset))).toUInt32
      (offset + (lead (bytes.toList.drop offset)).length) :=
  gives_readWithin 5 bytes offset

theorem decodes_read (h : IsNumber digits) (hlength : digits.length ≤ 5) :
    read.Decodes digits (value digits).toUInt32 := by
  intro before rest
  have hdrop : (before ++ digits ++ rest).toArray.toList.drop before.length = digits ++ rest := by
    rw [List.toList_toArray, List.append_assoc, List.drop_left]
  have hread := gives_read (before ++ digits ++ rest).toArray before.length
  rw [hdrop, lead_append h] at hread
  exact hread.eq_ok ⟨digits, rest, rfl, h, hlength⟩

/-! ## Writing -/

theorem continues_eq (b : UInt8) : continues b = decide (128 ≤ b.toNat) :=
  decide_eq_decide.2 UInt8.le_iff_toNat_le

theorem isNumber_encode (n : Nat) : IsNumber (encode n) := by
  fun_induction encode n with
  | case1 n h =>
    refine .last ?_
    rw [continues_eq, Bytes.toNat_toUInt8 (by omega)]
    exact decide_eq_false (Nat.not_le.2 h)
  | case2 n h ih =>
    refine .more ?_ ih
    rw [continues_eq, Bytes.toNat_toUInt8 (by omega)]
    exact decide_eq_true (Nat.le_add_left 128 _)

theorem value_encode (n : Nat) : value (encode n) = n := by
  fun_induction encode n with
  | case1 n h =>
    rw [value_cons, Bytes.toNat_toUInt8 (by omega), Nat.mod_eq_of_lt h]
    rfl
  | case2 n h ih =>
    rw [value_cons, ih, Bytes.toNat_toUInt8 (by omega)]
    omega

theorem length_encode_le {n k : Nat} (h : n < 128 ^ (k + 1)) : (encode n).length ≤ k + 1 := by
  induction k generalizing n with
  | zero =>
    rw [encode, if_pos (by simpa using h)]
    exact Nat.le_refl 1
  | succ k ih =>
    rw [encode]
    split
    · exact Nat.succ_le_succ (Nat.zero_le _)
    · have hrest : n / 128 < 128 ^ (k + 1) := by
        rw [Nat.div_lt_iff_lt_mul (by decide), ← Nat.pow_succ]
        exact h
      exact Nat.succ_le_succ (ih hrest)

/-- What is written in five bytes at most is read, but for the digits past the 32 bits. -/
theorem decodes_encode_of_lt {n : Nat} (h : n < 2 ^ 35) :
    read.Decodes (encode n) n.toUInt32 := by
  have hlength : (encode n).length ≤ 4 + 1 := length_encode_le h
  have hread := decodes_read (isNumber_encode n) hlength
  rwa [value_encode] at hread

/-- What is written for a number below 2^32 is read as this number. -/
theorem decodes_encode {n : Nat} (h : n < 2 ^ 32) : read.Decodes (encode n) n.toUInt32 :=
  decodes_encode_of_lt (Nat.lt_trans h (by decide))

theorem decodes_encode_toNat (v : UInt32) : read.Decodes (encode v.toNat) v := by
  have hread := decodes_encode v.toNat_lt
  rwa [Nat.toUInt32_eq, UInt32.ofNat_toNat] at hread

end DalvikLinkage.Uleb128
