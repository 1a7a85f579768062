import DalvikLinkage.Proofs.Text.Utf8
import DalvikLinkage.Text.ModifiedUtf8

/-!
# Modified UTF-8 is read as it was written

A character has three forms here: the two bytes of U+0000, its bytes in UTF-8 if there are at most
three, and a surrogate pair. Reading tells them apart by the first two bytes, as UTF-8 never has
`0xC0` or a surrogate. So the two encodings agree as far as they overlap: bytes that are well-formed
in both are the bytes of one text. None of the three forms has a zero byte, and apart from that byte
nothing is read but these forms.

Results:
* `head?_eq_some_iff`: what is found at the start of a byte string;
* `zero_notMem_encode`: no text has a zero byte;
* `decode?_encode`, `decode?_eq_some_iff`: the bytes that are read are those of the text;
* `eq_of_utf8_decode?_encode`: UTF-8 reads no other text from them.
-/
namespace DalvikLinkage.ModifiedUtf8

open Utf8 (isContinuation mayFollow six head continuation toNat_continuation
  isContinuation_continuation six_continuation toUInt8_eq_iff)

/-- What follows the first byte of a surrogate pair, with the number that the pair stands for. -/
inductive IsPair : List UInt8 → Nat → Prop
  | intro {h₂ h₃ l₂ l₃ : UInt8} (high : isHighHalf h₂ = true) (hhigh : isContinuation h₃ = true)
    (low : isLowHalf l₂ = true) (hlow : isContinuation l₃ = true) {value : Nat}
    (hvalue : pairValue h₂ h₃ l₂ l₃ = value) : IsPair [h₂, h₃, 0xED, l₂, l₃] value

/-- What a byte string can start with: a character that UTF-8 has there too, of three bytes at most,
or the character with the number zero, or a surrogate pair. -/
inductive Starts : UInt8 → List UInt8 → Nat → Nat → Prop
  | short {b : UInt8} {tail : List UInt8} {value extra : Nat}
    (h : head b tail = .scalar value extra) (hextra : extra ≤ 2) : Starts b tail value extra
  | zero (rest : List UInt8) : Starts 0xC0 (0x80 :: rest) 0 1
  | pair {pair : List UInt8} {value : Nat} (h : IsPair pair value) (rest : List UInt8) :
    Starts 0xED (pair ++ rest) value 5

variable {b : UInt8} {tail pair data rest : List UInt8} {c : Char} {cs ds : List Char}
variable {n value extra : Nat}

/-! ## Surrogate pairs -/

theorem isHighHalf_iff : isHighHalf b = true ↔ 0xA0 ≤ b.toNat ∧ b.toNat ≤ 0xAF := by
  simp [isHighHalf, UInt8.le_iff_toNat_le]

theorem isLowHalf_iff : isLowHalf b = true ↔ 0xB0 ≤ b.toNat ∧ b.toNat ≤ 0xBF := by
  simp [isLowHalf, UInt8.le_iff_toNat_le]

/-- UTF-8 has no surrogates. -/
theorem mayFollow_of_isHighHalf (h : isHighHalf b = true) : mayFollow 0xED b = false := by
  rw [isHighHalf_iff] at h
  rw [← Bool.not_eq_true, Utf8.mayFollow_iff]
  simp
  omega

theorem encodeChar_of_le (hlow : 0x10000 ≤ c.toNat) :
    encodeChar c = encodeThree (0xD800 + (c.toNat - 0x10000) / 1024) ++
      encodeThree (0xDC00 + (c.toNat - 0x10000) % 1024) := by
  rw [encodeChar, if_neg (by omega), if_neg (by omega), if_neg (by omega), if_neg (by omega)]

/-- A surrogate has the first byte `0xED`. -/
theorem encodeThree_surrogate (hlow : 0xD000 ≤ n) (h : n < 0xE000) :
    encodeThree n = [0xED, continuation (n / 64), continuation n] := by
  have hlead : (0xE0 + n / 4096).toUInt8 = 0xED := (toUInt8_eq_iff (by omega)).2 (by simp; omega)
  rw [encodeThree, hlead]
  rfl

theorem exists_pair (hlow : 0x10000 ≤ c.toNat) :
    ∃ pair, encodeChar c = 0xED :: pair ∧ IsPair pair c.toNat := by
  have hbound := Utf8.toNat_lt c
  rw [encodeChar_of_le hlow, encodeThree_surrogate (by omega) (by omega),
    encodeThree_surrogate (by omega) (by omega)]
  generalize c.toNat = n at *
  refine ⟨_, rfl, .intro (isHighHalf_iff.2 ?_) (isContinuation_continuation _)
    (isLowHalf_iff.2 ?_) (isContinuation_continuation _) ?_⟩
  · rw [toNat_continuation]
    omega
  · rw [toNat_continuation]
    omega
  · simp only [pairValue, toNat_continuation, six_continuation]
    omega

theorem IsPair.length_eq (h : IsPair pair value) : pair.length = 5 := by
  cases h
  rfl

theorem IsPair.zero_notMem (h : IsPair pair value) : 0 ∉ pair := by
  obtain ⟨high, hhigh, low, hlow, -⟩ := h
  rw [isHighHalf_iff] at high
  rw [isLowHalf_iff] at low
  rw [Utf8.isContinuation_iff] at hhigh hlow
  simp only [List.mem_cons, List.not_mem_nil, or_false, ← UInt8.toNat_inj, UInt8.reduceToNat]
  omega

theorem head_of_isPair (h : IsPair pair value) (rest : List UInt8) :
    head 0xED (pair ++ rest) = .broken 0 := by
  obtain ⟨high⟩ := h
  simp [head, mayFollow_of_isHighHalf high]

/-- A pair is the one of the character that it stands for. -/
theorem IsPair.exists_encodeChar (h : IsPair pair value) :
    ∃ c : Char, c.toNat = value ∧ encodeChar c = 0xED :: pair := by
  cases h with
  | intro high hhigh low hlow hvalue =>
    rw [isHighHalf_iff] at high
    rw [isLowHalf_iff] at low
    rw [Utf8.isContinuation_iff] at hhigh hlow
    unfold pairValue six at hvalue
    obtain ⟨c, hc⟩ := Utf8.exists_toNat_eq (n := value) (.inr (by omega))
    refine ⟨c, hc, ?_⟩
    rw [encodeChar_of_le (by omega), hc, encodeThree_surrogate (by omega) (by omega),
      encodeThree_surrogate (by omega) (by omega)]
    simp (disch := omega) only [continuation, List.cons_append, List.nil_append, List.cons.injEq,
      and_true, true_and, toUInt8_eq_iff]
    omega

/-! ## The start of a byte string -/

theorem head?_of_head (h : head b tail = .scalar value extra) (hextra : extra ≤ 2) :
    head? b tail = some (value, extra) := by
  have hzero : ¬b < 0xC2 → b ≠ 0xC0 := by
    intro hlow he
    exact hlow (by rw [he]; decide)
  revert h
  fun_cases head b tail
  all_goals simp only [Utf8.Head.scalar.injEq, reduceCtorEq, false_implies, and_imp]
  all_goals intro hvalue hlength; subst hvalue hlength
  case case1 hb => simp [head?, hb]
  case case3 hascii hlow hb b₂ _ h₂ => simp [head?, *]
  case case8 hascii hlow htwo hb b₂ b₃ _ h₂ h₃ =>
    have hfour : ¬0xF0 ≤ b := by simpa using hb
    rw [Bool.not_eq_true', Bool.not_eq_false] at h₂ h₃
    simp [head?, *]
  case case15 => omega

theorem starts_of_head? (h : head? b tail = some (value, extra)) : Starts b tail value extra := by
  revert h
  fun_cases head? b tail
  all_goals simp only [Option.some.injEq, Prod.mk.injEq, reduceCtorEq, false_implies, and_imp]
  all_goals intro hvalue hlength; subst hvalue hlength
  case case1 hb => exact .short (by simp [head, hb]) (Nat.zero_le 2)
  case case3 rest hb =>
    subst hb
    exact .zero rest
  case case6 => exact .short (by simp [head, *]) (Nat.le_succ 1)
  case case11 hfour b₃ rest h₃ h₂ =>
    have hthree : b < 0xF0 := by simpa using hfour
    rw [Bool.not_eq_true', Bool.not_eq_false] at h₃
    exact .short (by simp [head, *]) (Nat.le_refl 2)
  case case12 h₃ _ hhigh l l₂ l₃ rest hlow =>
    simp only [Bool.and_eq_true, decide_eq_true_eq, Bool.not_eq_true', Bool.not_eq_false] at *
    obtain ⟨rfl, high⟩ := hhigh
    obtain ⟨⟨rfl, low⟩, hl₃⟩ := hlow
    exact .pair (.intro high h₃ low hl₃ rfl) rest

theorem head?_eq_some_iff : head? b tail = some (value, extra) ↔ Starts b tail value extra := by
  refine ⟨starts_of_head?, fun h => ?_⟩
  cases h with
  | short h hextra => exact head?_of_head h hextra
  | zero rest => rfl
  | pair h rest =>
    obtain ⟨high, hhigh, low, hlow, rfl⟩ := h
    simp [head?, mayFollow_of_isHighHalf high, *]

/-! ## Characters -/

theorem encodeChar_of_short (h : c.toNat ≠ 0) (hc : c.toNat < 0x10000) :
    encodeChar c = Utf8.encodeChar c := by
  rw [encodeChar, Utf8.encodeChar, if_neg h, if_pos hc, if_pos hc]
  rfl

/-- The three forms of a character. -/
theorem encodeChar_cases (c : Char) :
    (c.toNat = 0 ∧ encodeChar c = [0xC0, 0x80]) ∨
      (c.toNat ≠ 0 ∧ c.toNat < 0x10000 ∧ encodeChar c = Utf8.encodeChar c) ∨
      ∃ pair, encodeChar c = 0xED :: pair ∧ IsPair pair c.toNat := by
  by_cases hzero : c.toNat = 0
  · exact .inl ⟨hzero, by rw [encodeChar, if_pos hzero]⟩
  · by_cases hshort : c.toNat < 0x10000
    · exact .inr (.inl ⟨hzero, hshort, encodeChar_of_short hzero hshort⟩)
    · exact .inr (.inr (exists_pair (Nat.le_of_not_lt hshort)))

/-- What a character's bytes start with: that character, and all bytes of it. -/
theorem starts_encodeChar (c : Char) (rest : List UInt8) :
    ∃ b tail, encodeChar c = b :: tail ∧ Starts b (tail ++ rest) c.toNat tail.length := by
  obtain ⟨hzero, hbytes⟩ | ⟨-, hshort, hbytes⟩ | ⟨pair, hbytes, hpair⟩ := encodeChar_cases c
  · refine ⟨0xC0, [0x80], hbytes, ?_⟩
    rw [hzero]
    exact .zero rest
  · obtain ⟨b, tail, hutf, hhead⟩ := Utf8.head_encodeChar c rest
    refine ⟨b, tail, hbytes.trans hutf, .short hhead ?_⟩
    have hlength := Utf8.length_encodeChar_le_three_iff.2 hshort
    rw [hutf, List.length_cons] at hlength
    exact Nat.le_of_succ_le_succ hlength
  · refine ⟨0xED, pair, hbytes, ?_⟩
    rw [hpair.length_eq]
    exact .pair hpair rest

/-- A character is found only where its bytes stand, but for the zero byte. -/
theorem Starts.exists_encodeChar (h : Starts b tail value extra) (hzero : 0 ∉ b :: tail) :
    ∃ c : Char, c.toNat = value ∧ encodeChar c = b :: tail.take extra := by
  cases h with
  | short h hextra =>
    obtain ⟨c, rfl, hbytes⟩ := Utf8.exists_encodeChar_of_head h
    refine ⟨c, rfl, (encodeChar_of_short (fun hc => ?_) ?_).trans hbytes⟩
    · have hmem := (Utf8.zero_mem_encodeChar_iff c).2 hc
      rw [hbytes] at hmem
      exact hzero (List.cons_subset_cons b (List.take_subset extra tail) hmem)
    · rw [← Utf8.length_encodeChar_le_three_iff, hbytes, List.length_cons]
      exact Nat.succ_le_succ (Nat.le_trans (List.length_take_le extra tail) hextra)
  | zero rest => exact ⟨'\x00', rfl, rfl⟩
  | pair h rest =>
    obtain ⟨c, hc, hbytes⟩ := h.exists_encodeChar
    refine ⟨c, hc, ?_⟩
    rw [hbytes, ← h.length_eq, List.take_left]

theorem zero_notMem_encodeChar (c : Char) : 0 ∉ encodeChar c := by
  obtain ⟨-, hbytes⟩ | ⟨hzero, -, hbytes⟩ | ⟨pair, hbytes, hpair⟩ := encodeChar_cases c
  · rw [hbytes]
    decide
  · rwa [hbytes, Utf8.zero_mem_encodeChar_iff]
  · rw [hbytes]
    intro hmem
    have hmem : 0 ∈ pair := by simpa using hmem
    exact hpair.zero_notMem hmem

/-! ## Texts -/

theorem encode_cons (c : Char) (cs : List Char) : encode (c :: cs) = encodeChar c ++ encode cs :=
  List.flatMap_cons

/-- A text can stand before a zero byte. -/
theorem zero_notMem_encode (cs : List Char) : 0 ∉ encode cs := by
  simp [encode, zero_notMem_encodeChar]

theorem decode?_encode (cs : List Char) : decode? (encode cs) = some cs := by
  induction cs with
  | nil => rw [encode, List.flatMap_nil, decode?]
  | cons c cs ih =>
    obtain ⟨b, tail, hbytes, hstarts⟩ := starts_encodeChar c (encode cs)
    rw [encode_cons, hbytes, List.cons_append, decode?, head?_eq_some_iff.2 hstarts]
    simp only [List.drop_left, ih, Option.map_some, Char.ofNat_toNat]

/-- **The bytes that are read as a text are its bytes, if there is no zero byte among them.** -/
theorem decode?_eq_some_iff (hzero : 0 ∉ data) : decode? data = some cs ↔ data = encode cs := by
  constructor
  · intro h
    fun_induction decode? data generalizing cs with
    | case1 => cases h; rfl
    | case2 b tail value extra hhead ih =>
      obtain ⟨rest, hrest, rfl⟩ := Option.map_eq_some_iff.1 h
      obtain ⟨c, rfl, hc⟩ := (starts_of_head? hhead).exists_encodeChar hzero
      have hdrop : 0 ∉ tail.drop extra := fun hmem =>
        hzero (List.mem_cons_of_mem b (List.mem_of_mem_drop hmem))
      rw [Char.ofNat_toNat, encode_cons, hc, ← ih hdrop hrest, List.cons_append,
        List.take_append_drop]
    | case3 => cases h
  · rintro rfl
    exact decode?_encode cs

/-- What is UTF-8 as well stands for the same text there. -/
theorem eq_of_utf8_decode?_encode (h : Utf8.decode? (encode ds) = some cs) : cs = ds := by
  induction ds generalizing cs with
  | nil =>
    rw [encode, List.flatMap_nil, Utf8.decode?] at h
    exact (Option.some.inj h).symm
  | cons d ds ih =>
    rw [encode_cons] at h
    obtain ⟨-, hbytes⟩ | ⟨-, -, hbytes⟩ | ⟨pair, hbytes, hpair⟩ := encodeChar_cases d
    · rw [hbytes, List.cons_append, Utf8.decode?] at h
      simp [head] at h
    · obtain ⟨b, tail, hutf, hhead⟩ := Utf8.head_encodeChar d (encode ds)
      rw [hbytes, hutf, List.cons_append, Utf8.decode?, hhead] at h
      simp only [List.drop_left] at h
      obtain ⟨rest, hrest, rfl⟩ := Option.map_eq_some_iff.1 h
      rw [ih hrest, Char.ofNat_toNat]
    · rw [hbytes, List.cons_append, Utf8.decode?, head_of_isPair hpair] at h
      cases h

end DalvikLinkage.ModifiedUtf8
