import DalvikLinkage.Linkage.Check
import DalvikLinkage.Proofs.Linkage.Missing
import DalvikLinkage.Proofs.Repository.WalkOrder
import Mathlib.Data.List.Forall2
import Mathlib.Data.Option.Basic

/-!
# What a repository answers

The classes of a repository stand in a list, but the searches only ever look types up in it. So two
repositories in which each type is defined by the same class answer alike, whatever the order of
their classes is, and with references to the same members they have the same report.

Results:
* `walk_congr_find?`, `superclassesFrom_congr_find?`: walks depend on the look-up of types alone;
* `exposure_congr_find?`: so does what a class answers to references;
* `report_congr`: the report is given by the look-up of types and the set of references.
-/
namespace DalvikLinkage.Repository

variable {r s : Repository} {next : ClassDef → List String} {todo seen : List String}
  {c d : ClassDef} {t : String}

/-! ## Walks -/

theorem exists_of_rel {R : ClassDef → ClassDef → Prop} {o o' : Option ClassDef}
    (h : Option.Rel R o o') (ho : o = some c) : ∃ c', o' = some c' ∧ R c c' := by
  cases h with
  | some hc =>
    obtain rfl := Option.some.inj ho
    exact ⟨_, rfl, hc⟩
  | none => cases ho

theorem eq_none_of_rel {R : ClassDef → ClassDef → Prop} {o o' : Option ClassDef}
    (h : Option.Rel R o o') (ho : o = none) : o' = none := by
  cases h with
  | some => cases ho
  | none => rfl

theorem walk_congr_find? (h : ∀ t, r.find? t = s.find? t) :
    r.walk next todo seen = s.walk next todo seen := by
  fun_induction walk r next todo seen with
  | case1 => rw [walk_nil]
  | case2 seen t rest hc ih =>
    rw [h] at hc
    rw [walk_cons_of_none hc, ih]
  | case3 seen t rest c hc ht ih => rw [walk_cons_of_mem (List.contains_iff_mem.1 ht), ih]
  | case4 seen t rest c hc ht _ ih =>
    rw [h] at hc
    have ht' : t ∉ seen := fun hm => ht (List.contains_iff_mem.2 hm)
    rw [walk_cons_of_not_mem hc ht', ih]

/-- The chain ends where there is no superclass, or none that is defined and new. -/
theorem superclassesFrom_of_passed
    (h : ∀ t, c.superclass = some t → r.find? t = none ∨ t ∈ seen) :
    r.superclassesFrom c seen = [c] := by
  unfold superclassesFrom
  split
  · rfl
  · next t hc =>
    split
    · rfl
    · next d hd =>
      have ht : t ∈ seen := by simpa [hd] using h t hc
      rw [dif_pos (List.contains_iff_mem.2 ht)]

theorem superclassesFrom_of_not_mem (hc : c.superclass = some t) (hd : r.find? t = some d)
    (ht : t ∉ seen) : r.superclassesFrom c seen = c :: r.superclassesFrom d (t :: seen) := by
  rw [superclassesFrom]
  split
  · next hn => rw [hc] at hn; cases hn
  · next u hu =>
    obtain rfl : t = u := Option.some.inj (hc.symm.trans hu)
    split
    · next hn => rw [hd] at hn; cases hn
    · next e he =>
      obtain rfl : d = e := Option.some.inj (hd.symm.trans he)
      rw [dif_neg (fun hm => ht (List.contains_iff_mem.1 hm))]

/-- Where types are defined by related classes, so are the classes of a chain of superclasses. -/
theorem forall₂_superclassesFrom {R : ClassDef → ClassDef → Prop}
    (hR : ∀ c d, R c d → d.superclass = c.superclass)
    (h : ∀ t, Option.Rel R (r.find? t) (s.find? t)) (hcd : R c d) :
    List.Forall₂ R (r.superclassesFrom c seen) (s.superclassesFrom d seen) := by
  fun_induction superclassesFrom r c seen generalizing d with
  | case1 c seen hs =>
    rw [superclassesFrom_of_passed]
    · exact .cons hcd .nil
    · intro t ht
      rw [hR c d hcd, hs] at ht
      cases ht
  | case2 c seen t hs hn =>
    rw [superclassesFrom_of_passed]
    · exact .cons hcd .nil
    · intro u hu
      rw [hR c d hcd, hs] at hu
      obtain rfl := Option.some.inj hu
      exact .inl (eq_none_of_rel (h t) hn)
  | case3 c seen t hs x hx ht =>
    rw [superclassesFrom_of_passed]
    · exact .cons hcd .nil
    · intro u hu
      rw [hR c d hcd, hs] at hu
      obtain rfl := Option.some.inj hu
      exact .inr (List.contains_iff_mem.1 ht)
  | case4 c seen t hs x hx ht _ ih =>
    obtain ⟨y, hy, hxy⟩ := exists_of_rel (h t) hx
    have ht' : t ∉ seen := fun hm => ht (List.contains_iff_mem.2 hm)
    rw [superclassesFrom_of_not_mem ((hR c d hcd).trans hs) hy ht']
    exact .cons hcd (ih hxy)

theorem superclassesFrom_congr_find? (h : ∀ t, r.find? t = s.find? t) :
    r.superclassesFrom c seen = s.superclassesFrom c seen := by
  have hrel : ∀ t, Option.Rel Eq (r.find? t) (s.find? t) := fun t => by
    rw [h]
    cases s.find? t with
    | none => exact .none
    | some c => exact .some rfl
  have hsame : ∀ c d : ClassDef, c = d → d.superclass = c.superclass := fun _ _ hcd => by rw [hcd]
  exact List.forall₂_eq_eq_eq ▸ forall₂_superclassesFrom hsame hrel rfl

theorem methodOrder_congr_find? (h : ∀ t, r.find? t = s.find? t) :
    r.methodOrder c = s.methodOrder c := by
  unfold methodOrder superclassChain
  rw [superclassesFrom_congr_find? h]
  dsimp only
  rw [walk_congr_find? h]

/-! ## Answers -/

theorem hasField_congr_find? (h : ∀ t, r.find? t = s.find? t) (key : FieldKey) :
    r.hasField c key = s.hasField c key := by
  unfold hasField inheritedFieldFlags? fieldOrder
  rw [walk_congr_find? h]

theorem hasMethod_congr_find? (h : ∀ t, r.find? t = s.find? t) (key : MethodKey) :
    r.hasMethod c key = s.hasMethod c key := by
  have hfind : r.find? = s.find? := funext h
  have hmethod : r.findMethod? = s.findMethod? := by
    funext d k
    unfold findMethod?
    rw [methodOrder_congr_find? h]
  unfold hasMethod inheritedMethodFlags?
  rw [hfind, hmethod]

theorem exposure_congr_find? (h : ∀ t, r.find? t = s.find? t) : r.exposure c = s.exposure c := by
  unfold exposure
  congr 1
  · exact funext fun key => hasField_congr_find? h key
  · exact funext fun key => hasMethod_congr_find? h key

/-- Repositories that define the same types alike and refer to the same members have one report. -/
theorem report_congr (h : ∀ t, r.find? t = s.find? t)
    (hf : ∀ key, key ∈ r.fieldReferences ↔ key ∈ s.fieldReferences)
    (hm : ∀ key, key ∈ r.methodReferences ↔ key ∈ s.methodReferences) : r.report = s.report := by
  refine Report.of_congr_references hf hm fun t => ?_
  show (r.find? t).map r.exposure = (s.find? t).map s.exposure
  have hexposure : r.exposure = s.exposure := funext fun _ => exposure_congr_find? h
  rw [h, hexposure]

end DalvikLinkage.Repository
