import DalvikLinkage.Container.Oat
import Mathlib.Algebra.Group.Nat.Defs
import Mathlib.Data.List.Basic

/-!
# Numbers of a file as words

The fields of a file are words of 64 bits, and here they are natural numbers below 2^64. What a
machine that computes in words makes of them is said by operations on words: a sum that is only
taken if it is a word, one that stops at the largest word, and a difference that is taken as it is
and may wrap. On numbers that are words these agree with the operations on natural numbers, as long
as no difference is below zero.

Results:
* `addChecked_eq`, `toNat_addSaturating`, `sub_eq_ok`: sums and differences in words;
* `inWords_of_ofBytes?`: the numbers of a file that is read are words.
-/
namespace DalvikLinkage.Elf

/-! ## Words -/

/-- What goes wrong where nothing makes sure that a difference of words is one. -/
inductive Wraps
  | belowZero
  deriving DecidableEq, Repr

namespace Word

/-- The sum of two words, if it is one. -/
def addChecked (a b : UInt64) : Option UInt64 :=
  if a.toNat + b.toNat < 2 ^ 64 then some (a + b) else none

/-- The sum of two words, or the largest word if that is more. -/
def addSaturating (a b : UInt64) : UInt64 :=
  if a.toNat + b.toNat < 2 ^ 64 then a + b else 0xffffffffffffffff

/-- The difference of two words, not looked at before. -/
def sub (a b : UInt64) : Except Wraps UInt64 :=
  if a < b then .error .belowZero else .ok (a - b)

end Word

variable {a b c n : Nat}

theorem toNat_toUInt64 (h : n < 2 ^ 64) : n.toUInt64.toNat = n :=
  UInt64.toNat_ofNat_of_lt' h

theorem checkedAdd_eq_some_iff : checkedAdd a b = some c ↔ a + b = c ∧ c < 2 ^ 64 := by
  unfold checkedAdd
  split
  · simp only [Option.some.injEq]
    omega
  · simp
    omega

theorem checkedAdd_eq_none_iff : checkedAdd a b = none ↔ 2 ^ 64 ≤ a + b := by
  unfold checkedAdd
  split
  · simp
    omega
  · simp
    omega

theorem toNat_add_toUInt64 (h : a + b < 2 ^ 64) : (a.toUInt64 + b.toUInt64).toNat = a + b := by
  rw [UInt64.toNat_add, toNat_toUInt64 (by omega), toNat_toUInt64 (by omega), Nat.mod_eq_of_lt h]

theorem addChecked_eq (ha : a < 2 ^ 64) (hb : b < 2 ^ 64) :
    Word.addChecked a.toUInt64 b.toUInt64 = (checkedAdd a b).map Nat.toUInt64 := by
  rw [Word.addChecked, toNat_toUInt64 ha, toNat_toUInt64 hb]
  by_cases h : a + b < 2 ^ 64
  · rw [if_pos h, checkedAdd_eq_some_iff.2 ⟨rfl, h⟩]
    simp
  · rw [if_neg h, checkedAdd_eq_none_iff.2 (by omega)]
    rfl

theorem toNat_addSaturating (ha : a < 2 ^ 64) (hb : b < 2 ^ 64) :
    (Word.addSaturating a.toUInt64 b.toUInt64).toNat = min (a + b) (2 ^ 64 - 1) := by
  rw [Word.addSaturating, toNat_toUInt64 ha, toNat_toUInt64 hb]
  by_cases h : a + b < 2 ^ 64
  · rw [if_pos h, toNat_add_toUInt64 h]
    omega
  · rw [if_neg h, Nat.min_eq_right (by omega)]
    rfl

theorem sub_eq_ok (ha : a < 2 ^ 64) (hb : b ≤ a) :
    Word.sub a.toUInt64 b.toUInt64 = .ok (a - b).toUInt64 := by
  have hle : ¬a.toUInt64 < b.toUInt64 := by
    rw [UInt64.lt_iff_toNat_lt, toNat_toUInt64 ha, toNat_toUInt64 (by omega)]
    omega
  rw [Word.sub, if_neg hle]
  congr 1
  apply UInt64.toNat_inj.1
  rw [UInt64.toNat_sub_of_le _ _ (UInt64.not_lt.1 hle), toNat_toUInt64 ha,
    toNat_toUInt64 (by omega), toNat_toUInt64 (by omega)]

theorem le_toUInt64_iff (ha : a < 2 ^ 64) (hb : b < 2 ^ 64) : a.toUInt64 ≤ b.toUInt64 ↔ a ≤ b := by
  rw [UInt64.le_iff_toNat_le, toNat_toUInt64 ha, toNat_toUInt64 hb]

theorem lt_toUInt64_iff (ha : a < 2 ^ 64) (hb : b < 2 ^ 64) : a.toUInt64 < b.toUInt64 ↔ a < b := by
  rw [UInt64.lt_iff_toNat_lt, toNat_toUInt64 ha, toNat_toUInt64 hb]

/-! ## Files of words -/

/-- The numbers of a segment are words. -/
structure Segment.InWords (s : Segment) : Prop where
  offset : s.offset < 2 ^ 64
  address : s.address < 2 ^ 64
  fileSize : s.fileSize < 2 ^ 64

instance (s : Segment) : Decidable s.InWords :=
  decidable_of_iff (s.offset < 2 ^ 64 ∧ s.address < 2 ^ 64 ∧ s.fileSize < 2 ^ 64)
    ⟨fun h => ⟨h.1, h.2.1, h.2.2⟩, fun h => ⟨h.offset, h.address, h.fileSize⟩⟩

/-- The numbers of a symbol are words. -/
structure NamedSymbol.InWords (s : NamedSymbol) : Prop where
  value : s.value < 2 ^ 64
  size : s.size < 2 ^ 64

instance (s : NamedSymbol) : Decidable s.InWords :=
  decidable_of_iff (s.value < 2 ^ 64 ∧ s.size < 2 ^ 64)
    ⟨fun h => ⟨h.1, h.2⟩, fun h => ⟨h.value, h.size⟩⟩

/-- The segments and symbols are of words, whatever else they are. -/
structure File.InWords (file : File) : Prop where
  segments : ∀ s ∈ file.segments, s.InWords
  symbols : ∀ s ∈ file.dynamicSymbols ++ file.staticSymbols, s.InWords

/-! ## Files that are read -/

section Read

variable {f : Format} {bytes : Bytes} {offset n : Nat} {file : File}

theorem foldl_digits_lt (digits : List UInt8) (n : Nat) :
    digits.foldl (fun n b => n * 256 + b.toNat) n < (n + 1) * 256 ^ digits.length := by
  induction digits generalizing n with
  | nil => simp
  | cons b digits ih =>
    have hb := b.toNat_lt
    have hstep : (n * 256 + b.toNat + 1) * 256 ^ digits.length ≤
        (n + 1) * 256 * 256 ^ digits.length := Nat.mul_le_mul_right _ (by omega)
    rw [List.foldl_cons, List.length_cons, Nat.pow_succ', ← Nat.mul_assoc]
    exact Nat.lt_of_lt_of_le (ih _) hstep

/-- A field of so many bytes is a number of so many bytes. -/
theorem number?_lt {width : Nat} (h : f.number? bytes offset width = some n) : n < 256 ^ width := by
  unfold Format.number? at h
  split at h
  · cases h
  · next hsize =>
    cases h
    have hlength : (bytes.slice offset (offset + width)).toList.length = width := by
      rw [Array.length_toList, Bytes.slice, Array.size_extract]
      omega
    have hnumber (digits : List UInt8) (hdigits : digits.length = width) :
        numberOf digits < 256 ^ width := by
      simpa [numberOf, hdigits] using foldl_digits_lt digits 0
    split
    · exact hnumber _ hlength
    · exact hnumber _ (by rw [List.length_reverse, hlength])

theorem words_of_fields? {widths ns : List Nat} (h : f.fields? bytes offset widths = some ns)
    (hwidths : ∀ width ∈ widths, width ≤ 8) : ∀ n ∈ ns, n < 2 ^ 64 := by
  induction widths generalizing offset ns with
  | nil =>
    cases h
    simp
  | cons width widths ih =>
    obtain ⟨n, hn, hrest⟩ := Option.bind_eq_some_iff.1 h
    obtain ⟨rest, hfields, hcons⟩ := Option.bind_eq_some_iff.1 hrest
    cases hcons
    obtain ⟨hwidth, hwidths⟩ := List.forall_mem_cons.1 hwidths
    have hword : n < 256 ^ 8 :=
      Nat.lt_of_lt_of_le (number?_lt hn) (Nat.pow_le_pow_right (by decide) hwidth)
    exact List.forall_mem_cons.2 ⟨hword, ih hfields hwidths⟩

theorem inWords_of_segment? {s : Segment} (h : segment? f bytes offset = some s) : s.InWords := by
  unfold segment? at h
  split at h
  · obtain ⟨fields, hfields, hs⟩ := Option.bind_eq_some_iff.1 h
    have hwords := words_of_fields? hfields (by decide)
    split at hs
    · cases hs
      exact ⟨hwords _ (by simp), hwords _ (by simp), hwords _ (by simp)⟩
    · cases hs
  · obtain ⟨fields, hfields, hs⟩ := Option.bind_eq_some_iff.1 h
    have hwords := words_of_fields? hfields (by decide)
    split at hs
    · cases hs
      exact ⟨hwords _ (by simp), hwords _ (by simp), hwords _ (by simp)⟩
    · cases hs

theorem words_of_symbol? {s : Symbol} (h : symbol? f bytes offset = some s) :
    s.value < 2 ^ 64 ∧ s.size < 2 ^ 64 := by
  unfold symbol? at h
  split at h
  · obtain ⟨fields, hfields, hs⟩ := Option.bind_eq_some_iff.1 h
    have hwords := words_of_fields? hfields (by decide)
    split at hs
    · cases hs
      exact ⟨hwords _ (by simp), hwords _ (by simp)⟩
    · cases hs
  · obtain ⟨fields, hfields, hs⟩ := Option.bind_eq_some_iff.1 h
    have hwords := words_of_fields? hfields (by decide)
    split at hs
    · cases hs
      exact ⟨hwords _ (by simp), hwords _ (by simp)⟩
    · cases hs

theorem exists_record_of_mem {α : Type} {record? : Nat → Option α} {length count : Nat}
    {records : List α} (h : records? record? length offset count = some records) {r : α}
    (hr : r ∈ records) : ∃ place, record? place = some r := by
  induction count generalizing offset records with
  | zero =>
    cases h
    cases hr
  | succ count ih =>
    obtain ⟨first, hfirst, hrest⟩ := Option.bind_eq_some_iff.1 h
    obtain ⟨rest, hrecords, hcons⟩ := Option.bind_eq_some_iff.1 hrest
    cases hcons
    rcases List.mem_cons.1 hr with rfl | hr
    · exact ⟨offset, hfirst⟩
    · exact ih hrecords hr

theorem inWords_withNames {count : Nat} {table : List UInt8} {symbols : List Symbol}
    (h : symbolTable? f bytes offset count = some symbols) :
    ∀ s ∈ withNames table symbols, s.InWords := by
  unfold symbolTable? at h
  split at h
  · intro s hs
    obtain ⟨symbol, hsymbol, rfl⟩ := List.mem_map.1 hs
    obtain ⟨place, hplace⟩ := exists_record_of_mem h hsymbol
    obtain ⟨hvalue, hsize⟩ := words_of_symbol? hplace
    exact ⟨hvalue, hsize⟩
  · cases h

theorem inWords_of_staticSymbols? {sections : List Section} {symbols : List NamedSymbol}
    (h : staticSymbols? f bytes sections = some symbols) : ∀ s ∈ symbols, s.InWords := by
  unfold staticSymbols? at h
  split at h
  · cases h
    simp
  · obtain ⟨table, htable, hrest⟩ := Option.bind_eq_some_iff.1 h
    obtain ⟨strings, -, hnames⟩ := Option.bind_eq_some_iff.1 hrest
    cases hnames
    exact inWords_withNames htable

theorem inWords_of_dynamicSymbols? {machine : Nat} {segments : List Segment}
    {symbols : List NamedSymbol} (h : dynamicSymbols? f bytes machine segments = some symbols) :
    ∀ s ∈ symbols, s.InWords := by
  unfold dynamicSymbols? at h
  obtain ⟨d, -, h⟩ := Option.bind_eq_some_iff.1 h
  split at h
  · cases h
    simp
  · obtain ⟨strings, -, h⟩ := Option.bind_eq_some_iff.1 h
    obtain ⟨count, -, h⟩ := Option.bind_eq_some_iff.1 h
    obtain ⟨table, htable, hnames⟩ := Option.bind_eq_some_iff.1 h
    cases hnames
    exact inWords_withNames htable

/-- All numbers of a file that is read are words. -/
theorem inWords_of_ofBytes? (h : File.ofBytes? bytes = some file) : file.InWords := by
  unfold File.ofBytes? at h
  obtain ⟨f, -, h⟩ := Option.bind_eq_some_iff.1 h
  obtain ⟨header, -, h⟩ := Option.bind_eq_some_iff.1 h
  split at h
  · cases h
  · obtain ⟨segments, hsegments, h⟩ := Option.bind_eq_some_iff.1 h
    obtain ⟨sections, -, h⟩ := Option.bind_eq_some_iff.1 h
    obtain ⟨names, -, h⟩ := Option.bind_eq_some_iff.1 h
    obtain ⟨statics, hstatics, h⟩ := Option.bind_eq_some_iff.1 h
    obtain ⟨dynamics, hdynamics, h⟩ := Option.bind_eq_some_iff.1 h
    split at h
    · cases h
      refine ⟨fun s hs => ?_, fun s hs => ?_⟩
      · obtain ⟨place, hplace⟩ := exists_record_of_mem hsegments hs
        exact inWords_of_segment? hplace
      · rcases List.mem_append.1 hs with hs | hs
        · exact inWords_of_dynamicSymbols? hdynamics s hs
        · exact inWords_of_staticSymbols? hstatics s hs
    · cases h

end Read

end DalvikLinkage.Elf
