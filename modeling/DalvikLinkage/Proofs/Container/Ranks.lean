import DalvikLinkage.Container.Multidex
import DalvikLinkage.Proofs.Text.ByteOrder
import DalvikLinkage.Proofs.Text.Reading
import Mathlib.Algebra.Group.Nat.Defs

/-!
# The order of the images of an archive

The names of images are of two kinds: those that have a number, as `classes.dex` has the number one,
and the others. Numbered names come first, by their numbers, and the others after them, by their
bytes. A name is loaded at the place of its rank, and this is where names can get into each other's
way: `classes2.dex`, `classes02.dex` and `classes+2.dex` have one number and so one rank.

Results:
* `ofName_eq_classes_iff`: the rank says which number a name has;
* `ofName_eq_ofName_iff`: two names share a rank exactly if they have the same number;
* `compare_ofName_eq_lt_iff`: the order of ranks is the order of loading;
* `pairwise_insertRanked`, `mem_insertRanked_iff`: what putting an entry at its rank does.
-/
namespace DalvikLinkage

/-- The number that a name gives to an image. -/
def Numbered (name : String) (n : Nat) : Prop :=
  name = "classes.dex" ∧ n = 1 ∨
    ∃ digits, name.toList = "classes".toList ++ digits ++ ".dex".toList ∧
      Number.Spells digits n ∧ 1 < n ∧ n < 2 ^ 32

/-- An image of the first name is loaded before one of the second: numbered names are first, in the
order of their numbers, and then the others, in the order of their bytes. -/
def LoadsBefore (a b : String) : Prop :=
  (∃ m n, Numbered a m ∧ Numbered b n ∧ m < n) ∨
  ((∃ m, Numbered a m) ∧ ¬∃ n, Numbered b n) ∨
  ((¬∃ m, Numbered a m) ∧ (¬∃ n, Numbered b n) ∧
    Utf8.encode a.toList < Utf8.encode b.toList)

namespace EntryRank

/-! ## Ranks and names -/

theorem number_eq_some_iff {name : String} {v : UInt32} :
    (do
      let rest ← Text.withoutStart? "classes".toList name.toList
      let digits ← Text.withoutEnd? ".dex".toList rest
      if digits.isEmpty then some 1
      else (Number.unsigned? 10 digits).filter (1 < ·)) = some v ↔
    Numbered name v.toNat := by
  constructor
  · intro h
    obtain ⟨rest, hrest, h⟩ := Option.bind_eq_some_iff.1 h
    obtain ⟨digits, hdigits, h⟩ := Option.bind_eq_some_iff.1 h
    rw [Text.withoutStart?_eq_some_iff] at hrest
    rw [Text.withoutEnd?_eq_some_iff] at hdigits
    rw [hdigits, ← List.append_assoc] at hrest
    cases digits with
    | nil =>
      rw [List.isEmpty_nil, if_pos rfl] at h
      cases h
      exact .inl ⟨String.toList_injective hrest, rfl⟩
    | cons c cs =>
      rw [List.isEmpty_cons, if_neg Bool.false_ne_true, Option.filter_eq_some_iff] at h
      obtain ⟨hv, hlt⟩ := h
      refine .inr ⟨c :: cs, hrest, Number.unsigned?_eq_some_iff.1 hv, ?_, v.toNat_lt⟩
      exact UInt32.lt_iff_toNat_lt.1 (of_decide_eq_true hlt)
  · rintro (⟨rfl, hv⟩ | ⟨digits, hname, hspells, hlt, -⟩)
    · obtain rfl : v = 1 := UInt32.toNat_inj.1 hv
      rfl
    · have hne : digits ≠ [] := by
        rintro rfl
        obtain ⟨ds, hds | hds, hne, -⟩ := hspells
        · exact hne hds.symm
        · cases hds
      have hstart : Text.withoutStart? "classes".toList name.toList =
          some (digits ++ ".dex".toList) :=
        Text.withoutStart?_eq_some_iff.2 (by rw [hname, List.append_assoc])
      have hend : Text.withoutEnd? ".dex".toList (digits ++ ".dex".toList) = some digits :=
        Text.withoutEnd?_eq_some_iff.2 rfl
      rw [hstart, Option.bind_eq_bind, Option.bind_some, hend, Option.bind_some,
        if_neg (by simpa using hne), Number.unsigned?_eq_some_iff.2 hspells]
      exact Option.filter_eq_some_iff.2 ⟨rfl, decide_eq_true (UInt32.lt_iff_toNat_lt.2 hlt)⟩

/-- The rank of a name that has a number is that number. -/
theorem ofName_eq_classes_iff {name : String} {v : UInt32} :
    ofName name = .classes v ↔ Numbered name v.toNat := by
  rw [← number_eq_some_iff]
  unfold ofName
  dsimp only
  split
  · next w hw => rw [hw, Option.some.injEq, classes.injEq]
  · next hnone => rw [hnone]; simp

theorem eq_of_ofName_eq_other {name other : String} (h : ofName name = .other other) :
    other = name := by
  unfold ofName at h
  dsimp only at h
  split at h
  · cases h
  · cases h; rfl

theorem numbered_iff {name : String} {n : Nat} :
    Numbered name n ↔ ∃ v : UInt32, ofName name = .classes v ∧ v.toNat = n := by
  constructor
  · intro h
    have hlt : n < 2 ^ 32 := by
      rcases h with ⟨-, rfl⟩ | ⟨-, -, -, -, hlt⟩
      · decide
      · exact hlt
    have hn : n.toUInt32.toNat = n := UInt32.toNat_ofNat_of_lt' hlt
    exact ⟨n.toUInt32, ofName_eq_classes_iff.2 (hn.symm ▸ h), hn⟩
  · rintro ⟨v, hv, rfl⟩
    exact ofName_eq_classes_iff.1 hv

/-- Two names share a rank exactly if they have one number. -/
theorem ofName_eq_ofName_iff {a b : String} :
    ofName a = ofName b ↔ a = b ∨ ∃ n, Numbered a n ∧ Numbered b n := by
  constructor
  · intro h
    cases ha : ofName a with
    | classes v =>
      rw [ha] at h
      exact .inr ⟨v.toNat, ofName_eq_classes_iff.1 ha, ofName_eq_classes_iff.1 h.symm⟩
    | other name =>
      rw [ha] at h
      exact .inl ((eq_of_ofName_eq_other ha).symm.trans (eq_of_ofName_eq_other h.symm))
  · rintro (rfl | ⟨n, ha, hb⟩)
    · rfl
    · obtain ⟨v, hv, hvn⟩ := numbered_iff.1 ha
      obtain ⟨w, hw, hwn⟩ := numbered_iff.1 hb
      rw [hv, hw, UInt32.toNat_inj.1 (hvn.trans hwn.symm)]

/-! ## The order of ranks -/

instance : Std.OrientedOrd EntryRank where
  eq_swap {a b} := by
    cases a <;> cases b
    · exact Std.OrientedOrd.eq_swap (α := UInt32)
    · rfl
    · rfl
    · exact Std.OrientedOrd.eq_swap (α := String)

instance : Std.TransOrd EntryRank where
  isLE_trans {a b c} hab hbc := by
    cases a with
    | classes l =>
      cases b with
      | classes m =>
        cases c with
        | classes n => exact Std.TransOrd.isLE_trans (α := UInt32) hab hbc
        | other name => rfl
      | other m =>
        cases c with
        | classes n => cases hbc
        | other name => rfl
    | other l =>
      cases b with
      | classes m => cases hab
      | other m =>
        cases c with
        | classes n => cases hbc
        | other n => exact Std.TransOrd.isLE_trans (α := String) hab hbc

instance : Std.LawfulEqOrd EntryRank where
  compare_self {a} := by
    cases a
    · exact Std.ReflOrd.compare_self (α := UInt32)
    · exact Std.ReflOrd.compare_self (α := String)
  eq_of_compare {a b} h := by
    cases a <;> cases b
    · exact congrArg classes (Std.LawfulEqOrd.eq_of_compare (α := UInt32) h)
    · cases h
    · cases h
    · exact congrArg other (Std.LawfulEqOrd.eq_of_compare (α := String) h)

/-- The ranks of two names are in the order in which their images are loaded. -/
theorem compare_ofName_eq_lt_iff {a b : String} :
    compare (ofName a) (ofName b) = .lt ↔ LoadsBefore a b := by
  simp only [LoadsBefore, numbered_iff]
  cases ha : ofName a with
  | classes v =>
    cases hb : ofName b with
    | classes w =>
      have hcompare : compare (classes v) (classes w) = .lt ↔ v < w :=
        Std.compare_eq_lt (α := UInt32)
      simp [hcompare, UInt32.lt_iff_toNat_lt]
    | other name =>
      have hcompare : compare (classes v) (other name) = .lt := rfl
      simp [hcompare]
  | other name =>
    cases hb : ofName b with
    | classes w =>
      have hcompare : compare (other name) (classes w) = .gt := rfl
      simp [hcompare]
    | other name' =>
      obtain rfl := eq_of_ofName_eq_other ha
      obtain rfl := eq_of_ofName_eq_other hb
      have hcompare : compare (other name) (other name') = compare name name' := rfl
      simp [hcompare, Utf8.compare_eq_lt_iff_encode_lt]

end EntryRank

/-! ## Entries by their ranks -/

/-- The entries stand in the order of their ranks, and no two have one rank. -/
def Ascending (ranked : RankedEntries) : Prop :=
  ranked.Pairwise fun x y => compare x.1 y.1 = .lt

variable {rank : EntryRank} {e : Entry} {ranked : RankedEntries} {x : EntryRank × Entry}

theorem Ascending.ne_of_lt (h : Ascending ((rank, e) :: ranked)) (hx : x ∈ ranked) :
    x.1 ≠ rank := by
  intro heq
  have hlt : compare rank x.1 = .lt := (List.pairwise_cons.1 h).1 x hx
  rw [heq, Std.ReflOrd.compare_self] at hlt
  cases hlt

theorem Ascending.nodup_ranks (h : Ascending ranked) : (ranked.map (·.1)).Nodup := by
  refine List.pairwise_map.2 (List.Pairwise.imp (fun {x y} hlt heq => ?_) h)
  rw [heq, Std.ReflOrd.compare_self] at hlt
  cases hlt

theorem Ascending.cons {r : EntryRank} {f : Entry} (h : Ascending ((r, f) :: ranked))
    (hlt : compare rank r = .lt) : Ascending ((rank, e) :: (r, f) :: ranked) := by
  refine List.pairwise_cons.2 ⟨fun y hy => ?_, h⟩
  rcases List.mem_cons.1 hy with rfl | hy
  · exact hlt
  · exact Std.TransCmp.lt_trans hlt ((List.pairwise_cons.1 h).1 y hy)

/-- Putting an entry at its rank leaves the entries at other ranks and takes the place of one that
is at this rank. -/
theorem mem_insertRanked_iff (h : Ascending ranked) :
    x ∈ insertRanked rank e ranked ↔ x = (rank, e) ∨ x ∈ ranked ∧ x.1 ≠ rank := by
  fun_induction insertRanked rank e ranked with
  | case1 => simp
  | case2 r f rest hlt =>
    have hne : x ∈ (r, f) :: rest → x.1 ≠ rank := (h.cons hlt).ne_of_lt (e := e)
    rw [List.mem_cons, and_iff_left_of_imp hne]
  | case3 r f rest heq =>
    obtain rfl : rank = r := Std.LawfulEqOrd.eq_of_compare heq
    have hne : x ∈ rest → x.1 ≠ rank := h.ne_of_lt
    rw [List.mem_cons, List.mem_cons]
    constructor
    · rintro (hx | hx)
      · exact .inl hx
      · exact .inr ⟨.inr hx, hne hx⟩
    · rintro (hx | ⟨rfl | hx, hrank⟩)
      · exact .inl hx
      · exact absurd rfl hrank
      · exact .inr hx
  | case4 r f rest hgt ih =>
    have hr : r ≠ rank := by
      rintro rfl
      rw [Std.ReflOrd.compare_self] at hgt
      cases hgt
    rw [List.mem_cons, List.mem_cons, ih (List.pairwise_cons.1 h).2]
    constructor
    · rintro (rfl | hx | ⟨hx, hrank⟩)
      · exact .inr ⟨.inl rfl, hr⟩
      · exact .inl hx
      · exact .inr ⟨.inr hx, hrank⟩
    · rintro (hx | ⟨rfl | hx, hrank⟩)
      · exact .inr (.inl hx)
      · exact .inl rfl
      · exact .inr (.inr ⟨hx, hrank⟩)

theorem ascending_insertRanked (h : Ascending ranked) :
    Ascending (insertRanked rank e ranked) := by
  fun_induction insertRanked rank e ranked with
  | case1 => exact List.pairwise_singleton _ _
  | case2 r f rest hlt => exact h.cons hlt
  | case3 r f rest heq =>
    obtain rfl : rank = r := Std.LawfulEqOrd.eq_of_compare heq
    exact List.pairwise_cons.2 (List.pairwise_cons.1 h)
  | case4 r f rest hgt ih =>
    obtain ⟨hfirst, hrest⟩ := List.pairwise_cons.1 h
    refine List.pairwise_cons.2 ⟨fun y hy => ?_, ih hrest⟩
    rcases (mem_insertRanked_iff hrest).1 hy with rfl | ⟨hy, -⟩
    · rw [Std.OrientedOrd.eq_swap (a := r), hgt]
      rfl
    · exact hfirst y hy

end DalvikLinkage
