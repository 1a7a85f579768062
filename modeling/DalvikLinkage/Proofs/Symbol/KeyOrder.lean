import DalvikLinkage.Symbol.Key
import DalvikLinkage.Proofs.Text.ByteOrder

/-!
# The order of member keys

Keys are compared part by part, first the class, then the name, then the type or prototype, and
each part by its bytes. Two keys are either one before the other or the same: no two keys share a
place, so sorting keys leaves nothing open.

Results:
* `compareTriples_eq_lt_iff`: what it means that one key is before another;
* instances that make the comparisons of field keys and of method keys linear orders.
-/
namespace DalvikLinkage

/-- The first text has the smaller bytes. -/
def TextBefore (a b : String) : Prop :=
  Utf8.encode a.toList < Utf8.encode b.toList

/-- The first triple has the smaller text at the first place where the two differ. -/
def TripleBefore (a b : String × String × String) : Prop :=
  TextBefore a.1 b.1 ∨ a.1 = b.1 ∧
    (TextBefore a.2.1 b.2.1 ∨ a.2.1 = b.2.1 ∧ TextBefore a.2.2 b.2.2)

/-- By class, name and type, in this order. -/
def FieldKey.Before (a b : FieldKey) : Prop :=
  TripleBefore (a.definingClass, a.name, a.fieldType) (b.definingClass, b.name, b.fieldType)

/-- By class, name and prototype, in this order. -/
def MethodKey.Before (a b : MethodKey) : Prop :=
  TripleBefore (a.definingClass, a.name, a.prototype) (b.definingClass, b.name, b.prototype)

/-! ## Triples -/

theorem compareTriples_eq_compareLex :
    compareTriples = compareLex (compareOn (·.1))
      (compareLex (compareOn (·.2.1)) (compareOn (·.2.2))) := rfl

instance : Std.TransCmp compareTriples := by
  rw [compareTriples_eq_compareLex]
  infer_instance

theorem compareTriples_eq_lt_iff {a b : String × String × String} :
    compareTriples a b = .lt ↔ TripleBefore a b := by
  unfold compareTriples TripleBefore TextBefore
  simp only [Ordering.then_eq_lt, Std.LawfulEqOrd.compare_eq_iff_eq,
    Utf8.compare_eq_lt_iff_encode_lt]

theorem compareTriples_eq_eq_iff {a b : String × String × String} :
    compareTriples a b = .eq ↔ a = b := by
  unfold compareTriples
  simp only [Ordering.then_eq_eq, Std.LawfulEqOrd.compare_eq_iff_eq, Prod.ext_iff]

/-! ## Keys -/

namespace FieldKey

instance : Std.TransOrd FieldKey where
  eq_swap {a b} := by
    show compareTriples _ _ = (compareTriples _ _).swap
    exact Std.OrientedCmp.eq_swap
  isLE_trans {a b c} hab hbc := by
    show (compareTriples _ _).isLE = true
    exact Std.TransCmp.isLE_trans hab hbc

instance : Std.LawfulEqOrd FieldKey where
  compare_self {a} := compareTriples_eq_eq_iff.2 rfl
  eq_of_compare {a b} h := by
    have hparts := compareTriples_eq_eq_iff.1 h
    cases a
    cases b
    simp_all

theorem compare_eq_lt_iff {a b : FieldKey} : compare a b = .lt ↔ a.Before b :=
  compareTriples_eq_lt_iff

end FieldKey

namespace MethodKey

instance : Std.TransOrd MethodKey where
  eq_swap {a b} := by
    show compareTriples _ _ = (compareTriples _ _).swap
    exact Std.OrientedCmp.eq_swap
  isLE_trans {a b c} hab hbc := by
    show (compareTriples _ _).isLE = true
    exact Std.TransCmp.isLE_trans hab hbc

instance : Std.LawfulEqOrd MethodKey where
  compare_self {a} := compareTriples_eq_eq_iff.2 rfl
  eq_of_compare {a b} h := by
    have hparts := compareTriples_eq_eq_iff.1 h
    cases a
    cases b
    simp_all

theorem compare_eq_lt_iff {a b : MethodKey} : compare a b = .lt ↔ a.Before b :=
  compareTriples_eq_lt_iff

end MethodKey
end DalvikLinkage
