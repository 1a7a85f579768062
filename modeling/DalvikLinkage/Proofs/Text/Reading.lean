import DalvikLinkage.Text.Number
import DalvikLinkage.Text.Pieces
import Mathlib.Data.List.Infix
import Mathlib.Tactic.SplitIfs

/-!
# Taking texts apart

What the readers of texts accept, said without them: a text without its start or end is what was
joined to it, and an unsigned decimal number is a row of digits, with a plus sign before it or not.
One number has many spellings, since zeros may stand in front.

Results:
* `withoutStart?_eq_some_iff`, `withoutEnd?_eq_some_iff`: cutting undoes joining;
* `withoutEnd?_append_cons`: the end of a text is the end of its last piece;
* `pieces_eq_splitOnP`, `join_eq_intercalate`: cutting into pieces and putting them together;
* `lastPiece_eq_iff`: what follows the last separator;
* `unsigned?_eq_some_iff`: the texts that are read as a number are its spellings.
-/
namespace DalvikLinkage

namespace Text

variable {start ending cs rest : List Char}

theorem withoutStart?_eq_some_iff : withoutStart? start cs = some rest ↔ cs = start ++ rest := by
  fun_induction withoutStart? start cs with
  | case1 cs => simp
  | case2 => simp
  | case3 start c cs ih => simp [ih]
  | case4 s start c cs h => simp [Ne.symm h]

theorem withoutEnd?_eq_some_iff : withoutEnd? ending cs = some rest ↔ cs = rest ++ ending := by
  unfold withoutEnd?
  split
  · next h =>
    obtain ⟨front, rfl⟩ := List.isSuffixOf_iff_suffix.1 h
    simp [eq_comm]
  · next h =>
    refine ⟨fun hn => (by cases hn), fun he => absurd ?_ h⟩
    exact List.isSuffixOf_iff_suffix.2 ⟨rest, he.symm⟩

theorem withoutEnd?_toList_eq_some_iff {ending text : String} :
    withoutEnd? ending.toList text.toList = some rest ↔ text = String.ofList rest ++ ending := by
  rw [withoutEnd?_eq_some_iff, ← String.toList_inj, String.toList_append, String.toList_ofList]

/-- What is in front of a separator does not matter for an end without separators. -/
theorem withoutEnd?_append_cons {separator : Char} (h : separator ∉ ending)
    (front cs : List Char) :
    withoutEnd? ending (front ++ separator :: cs) =
      (withoutEnd? ending cs).map fun rest => front ++ separator :: rest := by
  refine Option.ext fun rest => ?_
  rw [withoutEnd?_eq_some_iff, Option.map_eq_some_iff]
  simp only [withoutEnd?_eq_some_iff]
  constructor
  · intro hcut
    rcases List.append_eq_append_iff.1 hcut with ⟨behind, rfl, hbehind⟩ | ⟨between, -, hending⟩
    · cases behind with
      | nil =>
        rw [List.nil_append] at hbehind
        exact absurd (hbehind ▸ List.mem_cons_self) h
      | cons c behind =>
        obtain ⟨rfl, rfl⟩ := List.cons.inj hbehind
        exact ⟨behind, rfl, rfl⟩
    · exact absurd (hending ▸ List.mem_append_cons_self) h
  · rintro ⟨stem, rfl, rfl⟩
    simp

theorem pieces_eq_splitOnP (isSeparator : Char → Bool) (cs : List Char) :
    pieces isSeparator cs = cs.splitOnP isSeparator := by
  induction cs with
  | nil => rfl
  | cons c cs ih =>
    rw [List.splitOnP_cons_eq_if_modifyHead, pieces, ih]
    cases hrest : cs.splitOnP isSeparator with
    | nil => exact absurd hrest (List.splitOnP_ne_nil _ _)
    | cons piece others => rfl

theorem pieces_eq_splitOn (separator : Char) (cs : List Char) :
    pieces (· == separator) cs = cs.splitOn separator :=
  pieces_eq_splitOnP (· == separator) cs

theorem pieces_append_cons {isSeparator : Char → Bool} {c : Char} (h : isSeparator c = true)
    (front cs : List Char) :
    pieces isSeparator (front ++ c :: cs) = pieces isSeparator front ++ pieces isSeparator cs := by
  simp only [pieces_eq_splitOnP]
  exact List.splitOnP_append_cons front cs h

theorem pieces_of_notMem {separator : Char} (h : separator ∉ cs) :
    pieces (· == separator) cs = [cs] := by
  rw [pieces_eq_splitOn, List.splitOn_eq_singleton h]

/-- A piece without separators is the last one, whatever is in front of its separator. -/
theorem lastPiece_append_cons {separator : Char} {piece : List Char} (h : separator ∉ piece)
    (front : List Char) : lastPiece (· == separator) (front ++ separator :: piece) = piece := by
  have hpieces : pieces (· == separator) (front ++ separator :: piece) =
      pieces (· == separator) front ++ [piece] := by
    rw [← pieces_of_notMem h]
    exact pieces_append_cons (by simp) front piece
  rw [lastPiece, hpieces, List.getLastD_concat]

theorem lastPiece_of_notMem {separator : Char} (h : separator ∉ cs) :
    lastPiece (· == separator) cs = cs := by
  rw [lastPiece, pieces_of_notMem h]
  rfl

/-- The last piece is what follows the last separator, if there is one. -/
theorem lastPiece_eq_iff {separator : Char} {piece : List Char} :
    lastPiece (· == separator) cs = piece ↔
      separator ∉ piece ∧ (cs = piece ∨ ∃ front, cs = front ++ separator :: piece) := by
  constructor
  · rintro rfl
    by_cases hmem : separator ∈ cs
    · -- The last separator is the first one from behind.
      obtain ⟨behind, front, hcut, hbehind⟩ :=
        List.eq_append_cons_of_mem (List.mem_reverse.2 hmem)
      have hcs : cs = front.reverse ++ separator :: behind.reverse := by
        rw [← List.reverse_inj, hcut]
        simp
      have hpiece : separator ∉ behind.reverse := fun h => hbehind (List.mem_reverse.1 h)
      rw [hcs, lastPiece_append_cons hpiece]
      exact ⟨hpiece, .inr ⟨_, rfl⟩⟩
    · rw [lastPiece_of_notMem hmem]
      exact ⟨hmem, .inl rfl⟩
  · rintro ⟨h, rfl | ⟨front, rfl⟩⟩
    · exact lastPiece_of_notMem h
    · exact lastPiece_append_cons h front

theorem ofPieces_eq_intercalate (separator : List Char) (pieces : List (List Char)) :
    ofPieces separator pieces = separator.intercalate pieces := by
  fun_induction ofPieces separator pieces with
  | case1 => rfl
  | case2 piece => exact List.intercalate_singleton.symm
  | case3 piece others hne ih =>
    cases others with
    | nil => exact absurd rfl hne
    | cons other others => rw [ih, List.intercalate_cons_cons]

theorem join_eq_intercalate (separator : String) (texts : List String) :
    join separator texts = separator.intercalate texts := by
  rw [← String.toList_inj, join, String.toList_ofList, String.toList_intercalate,
    ofPieces_eq_intercalate]

end Text

namespace Number

/-- The text is the number in decimal digits, at least one, with a plus sign before them or not. -/
def Spells (cs : List Char) (n : Nat) : Prop :=
  ∃ digits, (cs = digits ∨ cs = '+' :: digits) ∧ digits ≠ [] ∧
    (∀ c ∈ digits, c.isDigit = true) ∧ Nat.ofDigitChars 10 digits 0 = n

theorem digitValue?_ten (c : Char) :
    digitValue? 10 c = if c.isDigit = true then some (c.toNat - '0'.toNat) else none := by
  have hzero : '0'.toNat = 48 := rfl
  have hnine : '9'.toNat = 57 := rfl
  simp only [digitValue?, Char.isDigit_iff_toNat, hzero, hnine]
  -- The letters are digits of the base 16 only, and there are ten decimal digits.
  split_ifs <;> first | rfl | omega

/-- Adds one digit to what was read before. -/
theorem digits?_step (acc : Option Nat) (c : Char) :
    (do return (← acc) * 10 + (← digitValue? 10 c)) =
      if c.isDigit = true then acc.map fun n => 10 * n + (c.toNat - '0'.toNat) else none := by
  rw [digitValue?_ten]
  cases acc <;> split <;> simp [Nat.mul_comm]

theorem foldl_digits {acc : Option Nat} {cs : List Char} {n : Nat} :
    cs.foldl (fun acc c => do return (← acc) * 10 + (← digitValue? 10 c)) acc = some n ↔
      (∀ c ∈ cs, c.isDigit = true) ∧ acc.map (Nat.ofDigitChars 10 cs) = some n := by
  induction cs generalizing acc with
  | nil => cases acc <;> simp [Nat.ofDigitChars]
  | cons c cs ih =>
    rw [List.foldl_cons, ih, digits?_step]
    cases hc : c.isDigit with
    | false => simp [hc]
    | true => cases acc <;> simp [hc, Nat.ofDigitChars_cons]

theorem digits?_eq_some_iff {cs : List Char} {n : Nat} :
    digits? 10 cs = some n ↔ (∀ c ∈ cs, c.isDigit = true) ∧ Nat.ofDigitChars 10 cs 0 = n := by
  rw [digits?, foldl_digits, Option.map_some, Option.some.injEq]

/-- What follows a plus sign, or the whole text, is read if it is digits of a number of 32 bits. -/
theorem bounded_eq_some_iff {digits : List Char} {v : UInt32} :
    (if digits.isEmpty = true then none
      else do
        let n ← digits? 10 digits
        if n ≤ 0xffffffff then some n.toUInt32 else none) = some v ↔
      digits ≠ [] ∧ (∀ c ∈ digits, c.isDigit = true) ∧
        Nat.ofDigitChars 10 digits 0 = v.toNat := by
  cases digits with
  | nil => simp
  | cons c cs =>
    rw [List.isEmpty_cons, if_neg Bool.false_ne_true]
    constructor
    · intro h
      obtain ⟨n, hn, hv⟩ := Option.bind_eq_some_iff.1 h
      obtain ⟨hdigits, hvalue⟩ := digits?_eq_some_iff.1 hn
      split at hv
      · next hle =>
        cases hv
        refine ⟨List.cons_ne_nil c cs, hdigits, hvalue.trans ?_⟩
        exact (UInt32.toNat_ofNat_of_lt' (Nat.lt_succ_of_le hle)).symm
      · cases hv
    · rintro ⟨-, hdigits, hvalue⟩
      have hlt := v.toNat_lt
      have hle : v.toNat ≤ 0xffffffff := by omega
      rw [digits?_eq_some_iff.2 ⟨hdigits, hvalue⟩, Option.bind_eq_bind, Option.bind_some,
        if_pos hle]
      simp

theorem unsigned?_eq_some_iff {cs : List Char} {v : UInt32} :
    unsigned? 10 cs = some v ↔ Spells cs v.toNat := by
  unfold unsigned?
  split
  · next rest =>
    refine bounded_eq_some_iff.trans ⟨fun h => ⟨rest, .inr rfl, h⟩, ?_⟩
    rintro ⟨digits, rfl | he, h⟩
    · -- A plus sign is no digit.
      exact absurd (h.2.1 '+' List.mem_cons_self) (by decide)
    · cases he
      exact h
  · next hplus =>
    refine bounded_eq_some_iff.trans ⟨fun h => ⟨cs, .inl rfl, h⟩, ?_⟩
    rintro ⟨digits, rfl | rfl, h⟩
    · exact h
    · exact absurd rfl (hplus digits)

end Number
end DalvikLinkage
