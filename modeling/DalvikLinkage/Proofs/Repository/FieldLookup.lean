import DalvikLinkage.Proofs.Repository.WalkOrder
import Mathlib.Data.List.Permutation

/-!
# What a search for a field finds

A class answers for a field that it does not declare by one search upwards from its supertypes. The
searches from the different supertypes share the set of seen classes, and the class itself is in it
from the start. None of this hides a declaration: the search comes to just the classes that are
reachable.

What it finds first depends on the order. A search for a field that starts at a class goes to the
interfaces of that class first and to its superclass afterwards (`findField?`), and so does every
step above the supertypes. The answer for the class itself starts at the superclass instead. The two
can tell apart a private declaration on one side from an accessible one on the other.

Results:
* `mem_fieldOrder_iff`: the search comes to just the classes that its start reaches;
* `hasField_over_hierarchy`: what a class answers, in terms of the hierarchy alone;
* `inheritedFieldFlags?_eq_or`, `findField?_eq_or`: the two orders of search, side by side;
* `hasField_iff_findField?_iff`: when the two orders give a class the same answer.
-/
namespace DalvikLinkage.Repository

open Relation

variable {r : Repository} {c d x : ClassDef} {key : FieldKey} {flags : AccessFlags}
  {types seen : List String}

/-! ## The order of search -/

theorem mem_nextForField {t : String} : t ∈ nextForField c ↔ t ∈ c.supertypes := by
  simp only [nextForField, ClassDef.supertypes, List.mem_append]
  exact or_comm

theorem step_nextForField (r : Repository) : r.Step nextForField = r.Above :=
  step_congr fun _ _ => mem_nextForField

/-- Besides the class itself, which counts as seen, a search from its supertypes comes to just the
classes that it reaches. -/
theorem mem_fieldOrder_iff (hc : r.find? c.descriptor = some c) :
    x = c ∨ x ∈ r.fieldOrder c ↔ r.Reaches c x := by
  constructor
  · rintro (rfl | h)
    · exact .refl
    · obtain ⟨t, ht, d, hd, hx⟩ := exists_of_mem_walk h
      rw [step_nextForField] at hx
      exact .head ⟨t, ht, hd⟩ hx
  · intro h
    refine h.mem_of_closed (S := fun x => x = c ∨ x ∈ r.fieldOrder c) (.inl rfl) ?_
    rintro x y (rfl | hx) hy
    · obtain ⟨t, ht, hfind⟩ := hy
      rcases mem_walk_of_todo ht hfind with h | h
      · exact .inr h
      · have hy := (find?_descriptor hfind).trans (List.mem_singleton.1 h)
        exact .inl (eq_of_descriptor hc (find?_self hfind) hy)
    · rcases mem_walk_of_step hx (step_nextForField r ▸ hy) with h | h
      · exact .inr h
      · exact .inl (eq_of_descriptor hc hy.find?_self (List.mem_singleton.1 h))

/-! ## What is found -/

theorem exists_of_inheritedFieldFlags? (hc : r.find? c.descriptor = some c)
    (h : r.inheritedFieldFlags? c key = some flags) :
    ∃ d, r.Reaches c d ∧ d.fieldFlags? key = some flags := by
  obtain ⟨d, hd, hkey⟩ := List.exists_of_findSome?_eq_some h
  exact ⟨d, (mem_fieldOrder_iff hc).1 (.inr hd), hkey⟩

theorem inheritedFieldFlags?_ne_none (hc : r.find? c.descriptor = some c)
    (hown : c.fieldFlags? key = none) (hd : r.Reaches c d) (hkey : d.fieldFlags? key ≠ none) :
    r.inheritedFieldFlags? c key ≠ none := by
  intro hnone
  have hall := List.findSome?_eq_none_iff.1 hnone
  rcases (mem_fieldOrder_iff hc).2 hd with rfl | hmem
  · exact hkey hown
  · exact hkey (hall d hmem)

/-- What a class answers for a field that it does not declare. -/
theorem hasField_iff (hown : c.fieldFlags? key = none) :
    r.hasField c key = true ↔
      ∃ flags, r.inheritedFieldFlags? c key = some flags ∧ flags.isPrivate = false := by
  cases h : r.inheritedFieldFlags? c key <;> simp [hasField, hown, h]

/-- **Field exposure over any hierarchy.** A class of the repository has the fields that it
declares, private ones included. It has another field only if a class that it reaches declares it
and not as private, and it does have it if one of these declares it and none as private, however the
hierarchy runs in circles, joins again or breaks off. -/
theorem hasField_over_hierarchy (r : Repository) (c : ClassDef) (key : FieldKey)
    (hc : r.find? c.descriptor = some c) :
    (c.fieldFlags? key ≠ none → r.hasField c key = true) ∧
    (c.fieldFlags? key = none →
      (r.hasField c key = true →
        ∃ d flags, r.Reaches c d ∧ d.fieldFlags? key = some flags ∧ flags.isPrivate = false) ∧
      ((∃ d, r.Reaches c d ∧ d.fieldFlags? key ≠ none) →
        (∀ d flags, r.Reaches c d → d.fieldFlags? key = some flags → flags.isPrivate = false) →
        r.hasField c key = true)) := by
  refine ⟨fun hown => ?_, fun hown => ⟨fun h => ?_, fun ⟨d, hd, hkey⟩ hpublic => ?_⟩⟩
  · simp [hasField, Option.isSome_iff_ne_none.2 hown]
  · obtain ⟨flags, hfound, hflags⟩ := (hasField_iff hown).1 h
    obtain ⟨d, hd, hkey⟩ := exists_of_inheritedFieldFlags? hc hfound
    exact ⟨d, flags, hd, hkey, hflags⟩
  · obtain ⟨flags, hfound⟩ :=
      Option.ne_none_iff_exists'.1 (inheritedFieldFlags?_ne_none hc hown hd hkey)
    obtain ⟨x, hx, hxkey⟩ := exists_of_inheritedFieldFlags? hc hfound
    exact (hasField_iff hown).2 ⟨flags, hfound, hpublic x flags hx hxkey⟩

/-- A class and its superclass that is also its subclass. They share an interface, which names one
of them and a type that no class defines. -/
def circle : Repository where
  classes := [
    { descriptor := "LA;", superclass := "LB;", interfaces := ["LI;"] },
    { descriptor := "LB;", superclass := "LA;", interfaces := ["LI;", "LGone;"],
      fields := [(⟨"LB;", "own", "I"⟩, ⟨0x2⟩)] },
    { descriptor := "LI;", superclass := "LGone;", interfaces := ["LB;"],
      fields := [(⟨"LI;", "max", "I"⟩, ⟨0x9⟩)] }]

theorem hasField_over_hierarchy_circle :
    let a : ClassDef := { descriptor := "LA;", superclass := "LB;", interfaces := ["LI;"] }
    circle.find? a.descriptor = some a ∧
    (circle.hasField a ⟨"LA;", "max", "I"⟩ = true →
      ∃ d flags, circle.Reaches a d ∧ d.fieldFlags? ⟨"LA;", "max", "I"⟩ = some flags ∧
        flags.isPrivate = false) ∧
    circle.hasField a ⟨"LA;", "max", "I"⟩ = true ∧
    circle.hasField a ⟨"LA;", "own", "I"⟩ = false := by
  intro a
  have hc : circle.find? a.descriptor = some a := by decide
  have hown : a.fieldFlags? ⟨"LA;", "max", "I"⟩ = none := by decide
  exact ⟨hc, ((hasField_over_hierarchy circle a ⟨"LA;", "max", "I"⟩ hc).2 hown).1, by cbv, by cbv⟩

/-! ## The two orders -/

/-- The flags of the field where a search through these types, in order, first finds it. -/
def searchField? (r : Repository) (key : FieldKey) (types seen : List String) :
    Option AccessFlags :=
  (r.walk nextForField types seen).findSome? (·.fieldFlags? key)

/-- The flags of the field where a search from `c` itself, with nothing seen, first finds it. -/
def findField? (r : Repository) (c : ClassDef) (key : FieldKey) : Option AccessFlags :=
  r.searchField? key [c.descriptor] []

/-- The answer for a class looks on the side of the superclass first. -/
theorem inheritedFieldFlags?_eq_or :
    r.inheritedFieldFlags? c key =
      (r.searchField? key c.superclass.toList [c.descriptor]).or
        (r.searchField? key c.interfaces [c.descriptor]) :=
  findSome?_walk_append _

/-- A search from the class itself looks at the class and then on the side of the interfaces first.
-/
theorem findField?_eq_or (hc : r.find? c.descriptor = some c) :
    r.findField? c key =
      (c.fieldFlags? key).or
        ((r.searchField? key c.interfaces [c.descriptor]).or
          (r.searchField? key c.superclass.toList [c.descriptor])) := by
  rw [findField?, searchField?, walk_cons_of_not_mem hc List.not_mem_nil, List.append_nil,
    nextForField, List.findSome?_cons]
  cases c.fieldFlags? key with
  | some flags => rfl
  | none => exact findSome?_walk_append _

/-- **When the two orders agree.** The answer for a class is that of a search from the class itself
for just the fields that the class declares, and those for which the sides of its superclass and of
its interfaces do not show it a private declaration and an accessible one. -/
theorem hasField_iff_findField?_iff (r : Repository) (c : ClassDef) (key : FieldKey)
    (hc : r.find? c.descriptor = some c) :
    (r.hasField c key = true ↔
      c.fieldFlags? key ≠ none ∨
        ∃ flags, r.findField? c key = some flags ∧ flags.isPrivate = false) ↔
    c.fieldFlags? key ≠ none ∨
      ∀ above beside,
        r.searchField? key c.superclass.toList [c.descriptor] = some above →
        r.searchField? key c.interfaces [c.descriptor] = some beside →
        above.isPrivate = beside.isPrivate := by
  cases hown : c.fieldFlags? key with
  | some flags => simp [hasField, hown]
  | none =>
    rw [hasField_iff hown, inheritedFieldFlags?_eq_or, findField?_eq_or hc, hown]
    cases ha : r.searchField? key c.superclass.toList [c.descriptor] with
    | none => cases r.searchField? key c.interfaces [c.descriptor] <;> simp
    | some above =>
      cases r.searchField? key c.interfaces [c.descriptor] with
      | none => simp
      | some beside => cases h : above.isPrivate <;> cases h' : beside.isPrivate <;> simp [h, h']

/-- In the circle both sides of a class come to the field of the interface. -/
theorem hasField_iff_findField?_iff_circle :
    let a : ClassDef := { descriptor := "LA;", superclass := "LB;", interfaces := ["LI;"] }
    let key : FieldKey := ⟨"LA;", "max", "I"⟩
    circle.find? a.descriptor = some a ∧
    (circle.hasField a key = true ↔
      a.fieldFlags? key ≠ none ∨
        ∃ flags, circle.findField? a key = some flags ∧ flags.isPrivate = false) := by
  intro a key
  have hc : circle.find? a.descriptor = some a := by decide
  have habove : circle.searchField? key a.superclass.toList [a.descriptor] = some ⟨0x9⟩ := by cbv
  have hbeside : circle.searchField? key a.interfaces [a.descriptor] = some ⟨0x9⟩ := by cbv
  refine ⟨hc, (hasField_iff_findField?_iff circle a key hc).2 (.inr fun above beside ha hb => ?_)⟩
  obtain rfl : ⟨0x9⟩ = above := Option.some.inj (habove.symm.trans ha)
  obtain rfl : ⟨0x9⟩ = beside := Option.some.inj (hbeside.symm.trans hb)
  rfl

/-- A class whose superclass keeps a field to itself that an interface of the class exposes. -/
def twoSides : Repository where
  classes := [
    { descriptor := "LC;", superclass := "LS;", interfaces := ["LI;"] },
    { descriptor := "LS;", fields := [(⟨"LS;", "x", "I"⟩, ⟨0x2⟩)] },
    { descriptor := "LI;", fields := [(⟨"LI;", "x", "I"⟩, ⟨0x9⟩)] }]

/-- The private field of the superclass stands in the way of the accessible one of the interface,
which a search from the class itself finds. -/
theorem hasField_ne_findField?_twoSides :
    let c : ClassDef := { descriptor := "LC;", superclass := "LS;", interfaces := ["LI;"] }
    twoSides.find? c.descriptor = some c ∧
    ¬(twoSides.hasField c ⟨"LC;", "x", "I"⟩ = true ↔
      c.fieldFlags? ⟨"LC;", "x", "I"⟩ ≠ none ∨
        ∃ flags, twoSides.findField? c ⟨"LC;", "x", "I"⟩ = some flags ∧
          flags.isPrivate = false) := by
  intro c
  have hc : twoSides.find? c.descriptor = some c := by decide
  have hfalse : twoSides.hasField c ⟨"LC;", "x", "I"⟩ = false := by cbv
  have hfound : twoSides.findField? c ⟨"LC;", "x", "I"⟩ = some ⟨0x9⟩ := by cbv
  refine ⟨hc, fun h => ?_⟩
  have htrue := h.2 (.inr ⟨⟨0x9⟩, hfound, by decide⟩)
  rw [hfalse] at htrue
  cases htrue

end DalvikLinkage.Repository
