import DalvikLinkage.Linkage.Report
import DalvikLinkage.Proofs.Symbol.KeyOrder
import Mathlib.Data.List.Permutation

/-!
# What a report lists

References come in any order and many times over, and each key is judged when it is met first. What
is missing is still a matter of the set of references and of what the classes answer: passing over a
key that was met before drops nothing, since the answer would be the same. The report puts the
missing keys in their order, and as no two keys share a place in it there is one such list.

Results:
* `mem_missingFields_iff`, `mem_missingMethods_iff`: what is missing;
* `mergeSort_congr`: lists without repetitions and with the same keys are sorted to the same list;
* `Report.of_congr`: a report is given by the two sets of missing members;
* `Report.of_canonical`: what a report lists, and what it does not depend on.
-/
namespace DalvikLinkage

/-! ## Sorting keys -/

section Sorting

variable {κ : Type} {keys others : List κ}

theorem nodup_eraseDups [BEq κ] [LawfulBEq κ] (keys : List κ) : keys.eraseDups.Nodup := by
  induction hn : keys.length using Nat.strongRecOn generalizing keys with
  | ind n ih =>
    cases keys with
    | nil => simp
    | cons k rest =>
      have hlen : (rest.filter fun j => !j == k).length < n := by
        have hle := List.length_filter_le (fun j => !j == k) rest
        rw [List.length_cons] at hn
        omega
      rw [List.eraseDups_cons, List.nodup_cons]
      exact ⟨by simp, ih _ hlen _ rfl⟩

variable [Ord κ] [Std.TransOrd κ] [Std.LawfulEqOrd κ]

/-- Sorting keys of which no two are the same leaves each before the next. -/
theorem pairwise_mergeSort_of_nodup (h : keys.Nodup) :
    (keys.mergeSort fun a b => (compare a b).isLE).Pairwise fun a b => compare a b = .lt := by
  have hle : (keys.mergeSort fun a b => (compare a b).isLE).Pairwise
      fun a b => (compare a b).isLE = true := by
    apply List.pairwise_mergeSort
    · intro a b c
      exact Std.TransOrd.isLE_trans
    · intro a b
      rw [Std.OrientedOrd.eq_swap (a := b) (b := a)]
      cases compare a b <;> rfl
  have hne : (keys.mergeSort fun a b => (compare a b).isLE).Pairwise fun a b => a ≠ b :=
    (List.mergeSort_perm keys _).nodup_iff.2 h
  refine List.Pairwise.imp₂ ?_ hle hne
  intro a b hab hdiff
  rw [Ordering.isLE_iff_eq_lt_or_eq_eq] at hab
  exact hab.resolve_right fun heq => hdiff (Std.LawfulEqOrd.eq_of_compare heq)

/-- There is one way to put a set of keys in order. -/
theorem mergeSort_congr (hk : keys.Nodup) (ho : others.Nodup) (h : ∀ k, k ∈ keys ↔ k ∈ others) :
    (keys.mergeSort fun a b => (compare a b).isLE) =
      others.mergeSort fun a b => (compare a b).isLE := by
  have hperm : keys.Perm others := (List.perm_ext_iff_of_nodup hk ho).2 h
  refine List.Perm.eq_of_pairwise ?_ (pairwise_mergeSort_of_nodup hk)
    (pairwise_mergeSort_of_nodup ho) ?_
  · intro a b _ _ hab hba
    exact absurd hba (Std.OrientedCmp.not_lt_of_lt hab)
  · exact (List.mergeSort_perm keys _).trans (hperm.trans (List.mergeSort_perm others _).symm)

end Sorting

/-! ## What is missing -/

namespace SymbolTable

variable {t u : SymbolTable}

/-- The field is referred to, and its class is there and does not expose it. -/
def FieldMissing (t : SymbolTable) (key : FieldKey) : Prop :=
  key ∈ t.fieldReferences ∧
    ∃ c, t.resolve? key.definingClass = some c ∧ c.hasField key = false

/-- The method is referred to, and its class is there and does not expose it. -/
def MethodMissing (t : SymbolTable) (key : MethodKey) : Prop :=
  key ∈ t.methodReferences ∧
    ∃ c, t.resolve? key.definingClass = some c ∧ c.hasMethod key = false

theorem lacksField_iff {key : FieldKey} :
    t.lacksField key = true ↔
      ∃ c, t.resolve? key.definingClass = some c ∧ c.hasField key = false := by
  unfold lacksField
  cases t.resolve? key.definingClass <;> simp

theorem lacksMethod_iff {key : MethodKey} :
    t.lacksMethod key = true ↔
      ∃ c, t.resolve? key.definingClass = some c ∧ c.hasMethod key = false := by
  unfold lacksMethod
  cases t.resolve? key.definingClass <;> simp

theorem mem_missingFields_iff {key : FieldKey} :
    key ∈ t.missingFields ↔ t.FieldMissing key := by
  unfold missingFields FieldMissing
  rw [List.mem_filter, List.mem_eraseDups, lacksField_iff]

theorem mem_missingMethods_iff {key : MethodKey} :
    key ∈ t.missingMethods ↔ t.MethodMissing key := by
  unfold missingMethods MethodMissing
  rw [List.mem_filter, List.mem_eraseDups, lacksMethod_iff]

theorem nodup_missingFields (t : SymbolTable) : t.missingFields.Nodup :=
  (nodup_eraseDups t.fieldReferences).filter _

theorem nodup_missingMethods (t : SymbolTable) : t.missingMethods.Nodup :=
  (nodup_eraseDups t.methodReferences).filter _

end SymbolTable

/-! ## Reports -/

namespace Report

open SymbolTable

variable {t u : SymbolTable}

theorem mem_of_missingFields {key : FieldKey} :
    key ∈ (of t).missingFields ↔ t.FieldMissing key := by
  unfold of
  rw [List.mem_mergeSort, mem_missingFields_iff]

theorem mem_of_missingMethods {key : MethodKey} :
    key ∈ (of t).missingMethods ↔ t.MethodMissing key := by
  unfold of
  rw [List.mem_mergeSort, mem_missingMethods_iff]

theorem pairwise_of_missingFields (t : SymbolTable) :
    (of t).missingFields.Pairwise FieldKey.Before :=
  (pairwise_mergeSort_of_nodup t.nodup_missingFields).imp FieldKey.compare_eq_lt_iff.1

theorem pairwise_of_missingMethods (t : SymbolTable) :
    (of t).missingMethods.Pairwise MethodKey.Before :=
  (pairwise_mergeSort_of_nodup t.nodup_missingMethods).imp MethodKey.compare_eq_lt_iff.1

/-- Two tables that lack the same members have the same report. -/
theorem of_congr (hf : ∀ key, t.FieldMissing key ↔ u.FieldMissing key)
    (hm : ∀ key, t.MethodMissing key ↔ u.MethodMissing key) : of t = of u := by
  have hfields : (of t).missingFields = (of u).missingFields := by
    refine mergeSort_congr t.nodup_missingFields u.nodup_missingFields fun key => ?_
    rw [mem_missingFields_iff, mem_missingFields_iff, hf]
  have hmethods : (of t).missingMethods = (of u).missingMethods := by
    refine mergeSort_congr t.nodup_missingMethods u.nodup_missingMethods fun key => ?_
    rw [mem_missingMethods_iff, mem_missingMethods_iff, hm]
  cases ht : of t
  cases hu : of u
  simp_all

/-- The order and the number of the references do not matter. -/
theorem of_congr_references (hf : ∀ key, key ∈ t.fieldReferences ↔ key ∈ u.fieldReferences)
    (hm : ∀ key, key ∈ t.methodReferences ↔ key ∈ u.methodReferences)
    (hc : ∀ type, t.resolve? type = u.resolve? type) : of t = of u := by
  apply of_congr
  · intro key
    unfold FieldMissing
    rw [hf, hc]
  · intro key
    unfold MethodMissing
    rw [hm, hc]

/-- **A report is the set of what is missing, in order.** Whatever the references and the classes
are, a member is missing if and only if it is referred to and its class is there and does not expose
it; members of types that are not there are left out. The report lists just the missing members, each
once and in the order of the keys, in whatever order the sets of missing members are gone through. So
two tables with the same set of references and the same answers have one report, in whatever order
and however often the references are made. -/
theorem of_canonical (t : SymbolTable) :
    (∀ key, key ∈ t.missingFields ↔ t.FieldMissing key) ∧
    (∀ key, key ∈ t.missingMethods ↔ t.MethodMissing key) ∧
    (∀ key, key ∈ (of t).missingFields ↔ t.FieldMissing key) ∧
    (∀ key, key ∈ (of t).missingMethods ↔ t.MethodMissing key) ∧
    (∀ key, t.resolve? key.definingClass = none → key ∉ (of t).missingFields) ∧
    (∀ key, t.resolve? key.definingClass = none → key ∉ (of t).missingMethods) ∧
    (of t).missingFields.Pairwise FieldKey.Before ∧
    (of t).missingMethods.Pairwise MethodKey.Before ∧
    (∀ keys : List FieldKey, keys.Perm t.missingFields →
      (keys.mergeSort fun a b => (compare a b).isLE) = (of t).missingFields) ∧
    (∀ keys : List MethodKey, keys.Perm t.missingMethods →
      (keys.mergeSort fun a b => (compare a b).isLE) = (of t).missingMethods) ∧
    ∀ u : SymbolTable,
      (∀ key, key ∈ t.fieldReferences ↔ key ∈ u.fieldReferences) →
      (∀ key, key ∈ t.methodReferences ↔ key ∈ u.methodReferences) →
      (∀ type, t.resolve? type = u.resolve? type) → of t = of u := by
  refine ⟨fun key => mem_missingFields_iff, fun key => mem_missingMethods_iff,
    fun key => mem_of_missingFields, fun key => mem_of_missingMethods, ?_, ?_,
    pairwise_of_missingFields t, pairwise_of_missingMethods t, ?_, ?_,
    fun u hf hm hc => of_congr_references hf hm hc⟩
  · intro key hnone hmem
    obtain ⟨-, c, hc, -⟩ := mem_of_missingFields.1 hmem
    rw [hnone] at hc
    cases hc
  · intro key hnone hmem
    obtain ⟨-, c, hc, -⟩ := mem_of_missingMethods.1 hmem
    rw [hnone] at hc
    cases hc
  · intro keys hperm
    have hn := hperm.nodup_iff.2 t.nodup_missingFields
    exact mergeSort_congr hn t.nodup_missingFields fun key => hperm.mem_iff
  · intro keys hperm
    have hn := hperm.nodup_iff.2 t.nodup_missingMethods
    exact mergeSort_congr hn t.nodup_missingMethods fun key => hperm.mem_iff

/-- References to fields of a class without members and of a type that is not there. -/
def bare (fieldReferences : List FieldKey) : SymbolTable where
  fieldReferences
  methodReferences := []
  resolve? type := if type = "LA;" then some ⟨fun _ => false, fun _ => false⟩ else none

/-- The second table has the references of the first the other way round and each once. -/
theorem of_canonical_shuffled :
    let x : FieldKey := ⟨"LA;", "x", "I"⟩
    let y : FieldKey := ⟨"LA;", "y", "I"⟩
    let gone : FieldKey := ⟨"LGone;", "a", "I"⟩
    of (bare [y, x, y, gone]) = of (bare [gone, x, y]) ∧
    (of (bare [y, x, y, gone])).missingFields = [x, y] := by
  intro x y gone
  have hsame := (of_canonical (bare [y, x, y, gone])).2.2.2.2.2.2.2.2.2.2 (bare [gone, x, y])
  refine ⟨hsame ?_ (fun _ => Iff.rfl) (fun _ => rfl), by cbv⟩
  intro key
  simp only [bare, List.mem_cons, List.not_mem_nil]
  tauto

end Report
end DalvikLinkage
