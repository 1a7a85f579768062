import DalvikLinkage.Proofs.Bytes.Reading
import DalvikLinkage.Proofs.Text.ByteOrder

/-!
# Texts are read as they were written

What UTF-8 writes for a character is the character's number in digits to the base 64, and the first
byte says how many there are. Reading looks at the first byte and takes as many more as it needs; it
finds the number again, since no number is written in a longer form than it has to be and none of a
character is that of a surrogate. So a text is read back from its bytes, with nothing replaced.
The other way round, a first byte and the ones after it are taken only if they are these digits, so
strict reading accepts the bytes of texts and no others.

Results:
* `head_encodeChar`: what is found at the start of a character's bytes, whatever follows;
* `decode?_encode`, `decodeLossy_encode`: strict and lossy reading give the text back;
* `encode_of_ascii`, `zero_mem_encode_iff`: which texts have one byte a character, or a zero byte;
* `decode?_eq_some_iff`: the bytes that strict reading accepts are those of the text that it reads.
-/
namespace DalvikLinkage.Utf8

variable {n : Nat}

/-! ## Characters -/

/-- A further byte of a character, with the last digit of a number to the base 64. -/
def continuation (n : Nat) : UInt8 :=
  (0x80 + n % 64).toUInt8

theorem toNat_continuation (n : Nat) : (continuation n).toNat = 0x80 + n % 64 := by
  rw [continuation, Bytes.toNat_toUInt8 (by omega)]

theorem isContinuation_continuation (n : Nat) : isContinuation (continuation n) = true := by
  have hbyte := toNat_continuation n
  simp only [isContinuation, Bool.and_eq_true, decide_eq_true_eq, UInt8.le_iff_toNat_le, hbyte,
    UInt8.reduceToNat]
  omega

theorem six_continuation (n : Nat) : six (continuation n) = n % 64 := by
  unfold six
  rw [toNat_continuation]
  omega

theorem head_of_lt_0x80 (h : n < 0x80) (rest : List UInt8) :
    head n.toUInt8 rest = .scalar n 0 := by
  have hbyte := Bytes.toNat_toUInt8 (n := n) (by omega)
  simp [head, UInt8.lt_iff_toNat_lt, hbyte, h]

theorem head_of_lt_0x800 (hlow : 0x80 ≤ n) (h : n < 0x800) (rest : List UInt8) :
    head (0xC0 + n / 64).toUInt8 (continuation n :: rest) = .scalar n 1 := by
  have hbyte := Bytes.toNat_toUInt8 (n := 0xC0 + n / 64) (by omega)
  simp only [head, UInt8.lt_iff_toNat_lt, hbyte, UInt8.reduceToNat, isContinuation_continuation,
    six_continuation]
  rw [if_neg (by omega), if_neg (by omega), if_pos (by omega), if_pos trivial]
  congr 1
  omega

theorem head_of_lt_0x10000 (hlow : 0x800 ≤ n) (h : n < 0x10000)
    (hscalar : n < 0xD800 ∨ 0xDFFF < n) (rest : List UInt8) :
    head (0xE0 + n / 4096).toUInt8 (continuation (n / 64) :: continuation n :: rest) =
      .scalar n 2 := by
  have hbyte := Bytes.toNat_toUInt8 (n := 0xE0 + n / 4096) (by omega)
  have hfollow : mayFollow (0xE0 + n / 4096).toUInt8 (continuation (n / 64)) = true := by
    simp only [mayFollow, ← UInt8.toNat_inj, hbyte, UInt8.le_iff_toNat_le, toNat_continuation,
      UInt8.reduceToNat, isContinuation_continuation]
    split_ifs <;> simp <;> omega
  simp only [head, UInt8.lt_iff_toNat_lt, hbyte, UInt8.reduceToNat, isContinuation_continuation,
    six_continuation, hfollow]
  rw [if_neg (by omega), if_neg (by omega), if_neg (by omega), if_pos (by omega)]
  simp
  omega

theorem head_of_lt_0x110000 (hlow : 0x10000 ≤ n) (h : n < 0x110000) (rest : List UInt8) :
    head (0xF0 + n / 262144).toUInt8
      (continuation (n / 4096) :: continuation (n / 64) :: continuation n :: rest) =
      .scalar n 3 := by
  have hbyte := Bytes.toNat_toUInt8 (n := 0xF0 + n / 262144) (by omega)
  have hfollow : mayFollow (0xF0 + n / 262144).toUInt8 (continuation (n / 4096)) = true := by
    simp only [mayFollow, ← UInt8.toNat_inj, hbyte, UInt8.le_iff_toNat_le, toNat_continuation,
      UInt8.reduceToNat, isContinuation_continuation]
    split_ifs <;> simp <;> omega
  simp only [head, UInt8.lt_iff_toNat_lt, hbyte, UInt8.reduceToNat, isContinuation_continuation,
    six_continuation, hfollow]
  rw [if_neg (by omega), if_neg (by omega), if_neg (by omega), if_neg (by omega),
    if_pos (by omega)]
  simp
  omega

/-- What reading finds at the start of a character's bytes: its number, and all bytes of it. -/
theorem head_encodeChar (c : Char) (rest : List UInt8) :
    ∃ b tail, encodeChar c = b :: tail ∧
      head b (tail ++ rest) = .scalar c.toNat tail.length := by
  have hbound := toNat_lt c
  have hscalar : c.toNat < 0xD800 ∨ 0xDFFF < c.toNat := c.valid.imp_right And.left
  rw [encodeChar]
  generalize c.toNat = n at *
  split_ifs with h1 h2 h3
  · exact ⟨_, _, rfl, head_of_lt_0x80 h1 rest⟩
  · exact ⟨_, _, rfl, head_of_lt_0x800 (by omega) h2 rest⟩
  · exact ⟨_, _, rfl, head_of_lt_0x10000 (by omega) h3 hscalar rest⟩
  · exact ⟨_, _, rfl, head_of_lt_0x110000 (by omega) hbound rest⟩

/-! ## Texts -/

/-- **A text is read back from its bytes.** -/
theorem decode?_encode (cs : List Char) : decode? (encode cs) = some cs := by
  induction cs with
  | nil => rw [encode, List.flatMap_nil, decode?]
  | cons c cs ih =>
    obtain ⟨b, tail, hbytes, hhead⟩ := head_encodeChar c (encode cs)
    rw [encode_cons, hbytes, List.cons_append, decode?, hhead]
    simp only [List.drop_left, ih, Option.map_some, Char.ofNat_toNat]

theorem decodeLossy_encode (cs : List Char) : decodeLossy (encode cs) = cs := by
  induction cs with
  | nil => rw [encode, List.flatMap_nil, decodeLossy]
  | cons c cs ih =>
    obtain ⟨b, tail, hbytes, hhead⟩ := head_encodeChar c (encode cs)
    rw [encode_cons, hbytes, List.cons_append, decodeLossy, hhead]
    simp only [List.drop_left, ih, Char.ofNat_toNat]

theorem zero_eq_toUInt8_iff (h : n < 256) : 0 = n.toUInt8 ↔ n = 0 := by
  rw [← UInt8.toNat_inj, Bytes.toNat_toUInt8 h, eq_comm]
  rfl

/-- Only the character with the number zero has a zero byte. -/
theorem zero_mem_encodeChar_iff (c : Char) : 0 ∈ encodeChar c ↔ c.toNat = 0 := by
  have hbound := toNat_lt c
  rw [encodeChar]
  generalize c.toNat = n at *
  split_ifs <;>
    simp (disch := omega) only [List.mem_cons, List.not_mem_nil, or_false, zero_eq_toUInt8_iff] <;>
    omega

theorem length_encodeChar_le_three_iff {c : Char} :
    (encodeChar c).length ≤ 3 ↔ c.toNat < 0x10000 := by
  rw [encodeChar]
  split_ifs <;> simp <;> omega

theorem zero_mem_encode_iff (cs : List Char) : 0 ∈ encode cs ↔ '\x00' ∈ cs := by
  have hnul (c : Char) : c.toNat = 0 ↔ c = '\x00' := by
    rw [← Char.toNat_inj]
    rfl
  simp only [encode, List.mem_flatMap, zero_mem_encodeChar_iff, hnul, exists_eq_right]

/-- A text of ASCII characters has one byte for each. -/
theorem encode_of_ascii {cs : List Char} (h : ∀ c ∈ cs, c.toNat < 0x80) :
    encode cs = cs.map fun c => c.toNat.toUInt8 := by
  rw [List.map_eq_flatMap]
  refine List.flatMap_congr fun c hc => ?_
  rw [encodeChar, if_pos (h c hc)]

/-! ## Bytes that are read -/

variable {b b₂ b₃ b₄ : UInt8} {tail bytes : List UInt8} {cs : List Char} {value extra : Nat}

theorem toUInt8_eq_iff (h : n < 256) : n.toUInt8 = b ↔ n = b.toNat := by
  rw [← UInt8.toNat_inj, Bytes.toNat_toUInt8 h]

theorem isContinuation_iff : isContinuation b = true ↔ 0x80 ≤ b.toNat ∧ b.toNat ≤ 0xBF := by
  simp [isContinuation, UInt8.le_iff_toNat_le]

theorem mayFollow_iff : mayFollow b b₂ = true ↔ (0x80 ≤ b₂.toNat ∧ b₂.toNat ≤ 0xBF) ∧
    (b.toNat = 0xE0 → 0xA0 ≤ b₂.toNat) ∧ (b.toNat = 0xED → b₂.toNat ≤ 0x9F) ∧
    (b.toNat = 0xF0 → 0x90 ≤ b₂.toNat) ∧ (b.toNat = 0xF4 → b₂.toNat ≤ 0x8F) := by
  simp only [mayFollow, ← UInt8.toNat_inj, UInt8.reduceToNat]
  split_ifs <;> simp [UInt8.le_iff_toNat_le, isContinuation_iff] <;> omega

theorem exists_toNat_eq (h : n.isValidChar) : ∃ c : Char, c.toNat = n :=
  ⟨Char.ofNatAux n h, rfl⟩

theorem exists_encodeChar_one (hb : b.toNat < 0x80) :
    ∃ c : Char, c.toNat = b.toNat ∧ encodeChar c = [b] := by
  obtain ⟨c, hc⟩ := exists_toNat_eq (n := b.toNat) (.inl (by omega))
  refine ⟨c, hc, ?_⟩
  rw [encodeChar, hc, if_pos hb, Nat.toUInt8_eq, UInt8.ofNat_toNat]

theorem exists_encodeChar_two (hlow : 0xC2 ≤ b.toNat) (hb : b.toNat < 0xE0)
    (h₂ : isContinuation b₂ = true) :
    ∃ c : Char, c.toNat = (b.toNat - 0xC0) * 64 + six b₂ ∧ encodeChar c = [b, b₂] := by
  rw [isContinuation_iff] at h₂
  unfold six
  obtain ⟨c, hc⟩ := exists_toNat_eq (n := (b.toNat - 0xC0) * 64 + (b₂.toNat - 0x80))
    (.inl (by omega))
  refine ⟨c, hc, ?_⟩
  rw [encodeChar, hc, if_neg (by omega), if_pos (by omega)]
  simp (disch := omega) only [List.cons.injEq, and_true, toUInt8_eq_iff]
  omega

theorem exists_encodeChar_three (hlow : 0xE0 ≤ b.toNat) (hb : b.toNat < 0xF0)
    (h₂ : mayFollow b b₂ = true) (h₃ : isContinuation b₃ = true) :
    ∃ c : Char, c.toNat = ((b.toNat - 0xE0) * 64 + six b₂) * 64 + six b₃ ∧
      encodeChar c = [b, b₂, b₃] := by
  rw [isContinuation_iff] at h₃
  rw [mayFollow_iff] at h₂
  unfold six
  obtain ⟨c, hc⟩ := exists_toNat_eq
    (n := ((b.toNat - 0xE0) * 64 + (b₂.toNat - 0x80)) * 64 + (b₃.toNat - 0x80))
    (by unfold Nat.isValidChar; omega)
  refine ⟨c, hc, ?_⟩
  rw [encodeChar, hc, if_neg (by omega), if_neg (by omega), if_pos (by omega)]
  simp (disch := omega) only [List.cons.injEq, and_true, toUInt8_eq_iff]
  omega

theorem exists_encodeChar_four (hlow : 0xF0 ≤ b.toNat) (hb : b.toNat < 0xF5)
    (h₂ : mayFollow b b₂ = true) (h₃ : isContinuation b₃ = true) (h₄ : isContinuation b₄ = true) :
    ∃ c : Char, c.toNat = (((b.toNat - 0xF0) * 64 + six b₂) * 64 + six b₃) * 64 + six b₄ ∧
      encodeChar c = [b, b₂, b₃, b₄] := by
  rw [isContinuation_iff] at h₃ h₄
  rw [mayFollow_iff] at h₂
  unfold six
  obtain ⟨c, hc⟩ := exists_toNat_eq
    (n := (((b.toNat - 0xF0) * 64 + (b₂.toNat - 0x80)) * 64 + (b₃.toNat - 0x80)) * 64 +
      (b₄.toNat - 0x80))
    (by unfold Nat.isValidChar; omega)
  refine ⟨c, hc, ?_⟩
  rw [encodeChar, hc, if_neg (by omega), if_neg (by omega), if_neg (by omega)]
  simp (disch := omega) only [List.cons.injEq, and_true, toUInt8_eq_iff]
  omega

/-- A character is found only where its bytes stand. -/
theorem exists_encodeChar_of_head (h : head b tail = .scalar value extra) :
    ∃ c : Char, c.toNat = value ∧ encodeChar c = b :: tail.take extra := by
  revert h
  fun_cases head b tail
  -- In four cases there is a character, one for each length.
  all_goals simp only [Head.scalar.injEq, reduceCtorEq, false_implies, and_imp]
  all_goals simp only [UInt8.lt_iff_toNat_lt, UInt8.reduceToNat, Nat.not_lt, Bool.not_eq_true',
    Bool.not_eq_false] at *
  all_goals rintro rfl rfl
  case case1 hb => exact exists_encodeChar_one hb
  case case3 b₂ _ h₂ _ hlow hb => exact exists_encodeChar_two hlow hb h₂
  case case8 b₂ b₃ _ _ _ hlow hb h₂ h₃ => exact exists_encodeChar_three hlow hb h₂ h₃
  case case15 b₂ b₃ b₄ _ _ _ _ hlow hb h₂ h₃ h₄ => exact exists_encodeChar_four hlow hb h₂ h₃ h₄

/-- **The bytes that are read as a text are its bytes.** -/
theorem decode?_eq_some_iff : decode? bytes = some cs ↔ bytes = encode cs := by
  constructor
  · intro h
    fun_induction decode? bytes generalizing cs with
    | case1 => cases h; rfl
    | case2 b tail value extra hhead ih =>
      obtain ⟨rest, hrest, rfl⟩ := Option.map_eq_some_iff.1 h
      obtain ⟨c, rfl, hc⟩ := exists_encodeChar_of_head hhead
      rw [Char.ofNat_toNat, encode_cons, hc, ← ih hrest, List.cons_append,
        List.take_append_drop]
    | case3 => cases h
  · rintro rfl
    exact decode?_encode cs

end DalvikLinkage.Utf8
