import DalvikLinkage.Proofs.Repository.FieldLookup
import DalvikLinkage.Proofs.Repository.MethodOrder

/-!
# Answers and the order of interfaces

A class that does not declare a member takes over what it finds above: from its superclass, or else
from the first of its interfaces that comes to a declaration. The first declaration decides, and a
private one is not exposed. So the answer of a class may change when some class above it lists its
interfaces in another order, and the question is when it cannot.

It cannot if all declarations that can come first agree on being private. What can come first is
said without a search. For a field it comes first on some way up (`ComesFirst`). For a method it is
the nearest declaration among the superclasses, or, if there is none, it comes first on a way that
starts at an interface of these superclasses, of the higher ones before that of the lower ones
(`BesideChain`).

Results:
* `AnswersOf.agree_iff`: when the order of interfaces does not matter to what is taken over;
* `answersOf_fields`, `answersOf_methods`: the two kinds of members;
* `exposure_reordered_iff`: when it does not matter to the answers of a class;
* `not_exposure_reordered_twoInterfaces`: a class to which it does.
-/
namespace DalvikLinkage.Repository

variable {r r' : Repository} {c c' : ClassDef} {o t : String} {a flags : AccessFlags}
  {leads : String → Prop} {first : String → AccessFlags → Prop}

/-! ## Taking over -/

/-- A class can take over the flags `a`: its superclass leads to them first, or leads to nothing and
one of the interfaces leads to them first. -/
inductive TakenOver (c : ClassDef) (leads : String → Prop) (first : String → AccessFlags → Prop) :
    AccessFlags → Prop
  | above {s : String} {a : AccessFlags} (hs : c.superclass = some s) (h : first s a) :
    TakenOver c leads first a
  | beside {i : String} {a : AccessFlags} (hquiet : ∀ s, c.superclass = some s → ¬ leads s)
    (hi : i ∈ c.interfaces) (h : first i a) : TakenOver c leads first a

/-- A declaration was found and is not private. -/
def isExposed (found : Option AccessFlags) : Bool :=
  (found.map fun flags => !flags.isPrivate).getD false

/-- What a class of type `o` finds from one of its supertypes on, together with what it means that a
supertype leads to a declaration at all, and that flags can come first. -/
structure AnswersOf (find : Repository → String → String → Option AccessFlags)
    (leads : Repository → String → String → Prop)
    (first : Repository → String → String → AccessFlags → Prop) : Prop where
  first_of_find : ∀ {r o t a}, find r o t = some a → first r o t a
  find_ne_none : ∀ {r o t}, leads r o t → find r o t ≠ none
  leads_of_first : ∀ {r o t a}, first r o t a → leads r o t
  reordered : ∀ {r r' o t a}, r.Reorders r' → first r o t a → first r' o t a
  exists_reordered : ∀ {r o t a}, first r o t a → ∃ r', r.Reorders r' ∧ find r' o t = some a
  find_withInterfaces : ∀ {r o t} {c : ClassDef}, r.find? o = some c →
    find (r.withInterfaces o (t :: c.interfaces.erase t)) o t = find r o t

theorem TakenOver.exists_first (h : TakenOver c leads first a) : ∃ t ∈ c.supertypes, first t a := by
  cases h with
  | @above s _ hs hfirst => exact ⟨s, List.mem_append_left _ (Option.mem_toList.2 hs), hfirst⟩
  | @beside i _ _ hi hfirst => exact ⟨i, List.mem_append_right _ hi, hfirst⟩

namespace AnswersOf

variable {find : Repository → String → String → Option AccessFlags}
  {leads : Repository → String → String → Prop}
  {first : Repository → String → String → AccessFlags → Prop}

theorem leads_reordered (h : AnswersOf find leads first) (hr : r.Reorders r')
    (hleads : leads r o t) : leads r' o t := by
  obtain ⟨a, ha⟩ := Option.ne_none_iff_exists'.1 (h.find_ne_none hleads)
  exact h.leads_of_first (h.reordered hr (h.first_of_find ha))

theorem find_eq_none (h : AnswersOf find leads first) (hleads : ¬ leads r o t) :
    find r o t = none := by
  by_contra hne
  obtain ⟨a, ha⟩ := Option.ne_none_iff_exists'.1 hne
  exact hleads (h.leads_of_first (h.first_of_find ha))

theorem taken_of_find (h : AnswersOf find leads first)
    (hfound : c.supertypes.findSome? (find r o) = some a) :
    TakenOver c (leads r o) (first r o) a := by
  rw [ClassDef.supertypes, List.findSome?_append] at hfound
  rcases Option.or_eq_some_iff.1 hfound with habove | ⟨habove, hbeside⟩
  · obtain ⟨s, hs, hfirst⟩ := List.exists_of_findSome?_eq_some habove
    exact .above (Option.mem_toList.1 hs) (h.first_of_find hfirst)
  · obtain ⟨i, hi, hfirst⟩ := List.exists_of_findSome?_eq_some hbeside
    refine .beside (fun s hs hleads => ?_) hi (h.first_of_find hfirst)
    have hnone := List.findSome?_eq_none_iff.1 habove s (Option.mem_toList.2 hs)
    exact h.find_ne_none hleads hnone

theorem find_ne_none_of_taken (h : AnswersOf find leads first)
    (htaken : TakenOver c (leads r o) (first r o) a) :
    c.supertypes.findSome? (find r o) ≠ none := by
  intro hnone
  have hall := List.findSome?_eq_none_iff.1 hnone
  obtain ⟨t, ht, hfirst⟩ := htaken.exists_first
  exact h.find_ne_none (h.leads_of_first hfirst) (hall t ht)

theorem taken_reordered (h : AnswersOf find leads first) (hr : r.Reorders r')
    (hc : c.Reordered c') (htaken : TakenOver c (leads r o) (first r o) a) :
    TakenOver c' (leads r' o) (first r' o) a := by
  obtain ⟨interfaces, hperm, rfl⟩ := hc
  cases htaken with
  | above hs hfirst => exact .above hs (h.reordered hr hfirst)
  | beside hquiet hi hfirst =>
    refine .beside (fun s hs hleads => ?_) (hperm.mem_iff.2 hi) (h.reordered hr hfirst)
    exact hquiet s hs (h.leads_reordered hr.symm hleads)

/-- Whatever can be taken over is found in some order. -/
theorem exists_reordered_of_taken (h : AnswersOf find leads first) (hc : r.find? o = some c)
    (htaken : TakenOver c (leads r o) (first r o) a) :
    ∃ r' c', r.Reorders r' ∧ r'.find? o = some c' ∧
      c'.supertypes.findSome? (find r' o) = some a := by
  cases htaken with
  | above hs hfirst =>
    obtain ⟨r', hr, hfound⟩ := h.exists_reordered hfirst
    obtain ⟨interfaces, -, hc'⟩ := hr.find? hc
    refine ⟨r', _, hr, hc', ?_⟩
    rw [ClassDef.supertypes, hs, Option.toList_some, List.singleton_append, List.findSome?_cons,
      hfound]
  | @beside i _ hquiet hi hfirst =>
    obtain ⟨r', hr, hfound⟩ := h.exists_reordered hfirst
    obtain ⟨interfaces, hperm, hc'⟩ := hr.find? hc
    -- The interface is put in front. It is passed over in its own search, so this finds the same.
    have hfront := (List.perm_cons_erase (hperm.mem_iff.2 hi)).symm.trans hperm
    have hr' := hr.withInterfaces hc hfront
    refine ⟨_, _, hr', find?_withInterfaces_self hc', ?_⟩
    have habove : c.superclass.toList.findSome?
        (find (r'.withInterfaces o (i :: interfaces.erase i)) o) = none :=
      List.findSome?_eq_none_iff.2 fun s hs => h.find_eq_none fun hleads =>
        hquiet s (Option.mem_toList.1 hs) (h.leads_reordered hr'.symm hleads)
    have hfind := h.find_withInterfaces (t := i) hc'
    rw [ClassDef.supertypes, List.findSome?_append, habove, Option.none_or, List.findSome?_cons,
      hfind, hfound]

/-- The order of interfaces does not matter to an answer that exposes what is taken over if and only
if all declarations that can be taken over agree on being private. -/
theorem agree_iff (h : AnswersOf find leads first) (hc : r.find? o = some c)
    {answer : Repository → ClassDef → Bool}
    (hanswer : ∀ r' c', r.Reorders r' → r'.find? o = some c' →
      answer r' c' = isExposed (c'.supertypes.findSome? (find r' o))) :
    (∀ r' c', r.Reorders r' → r'.find? o = some c' → answer r' c' = answer r c) ↔
    ∀ a b, TakenOver c (leads r o) (first r o) a → TakenOver c (leads r o) (first r o) b →
      a.isPrivate = b.isPrivate := by
  constructor
  · intro hsame a b ha hb
    obtain ⟨ra, ca, hra, hca, hfounda⟩ := h.exists_reordered_of_taken hc ha
    obtain ⟨rb, cb, hrb, hcb, hfoundb⟩ := h.exists_reordered_of_taken hc hb
    have heq := (hsame ra ca hra hca).trans (hsame rb cb hrb hcb).symm
    rw [hanswer ra ca hra hca, hanswer rb cb hrb hcb, hfounda, hfoundb] at heq
    simpa [isExposed] using heq
  · intro hagree r' c' hr hc'
    have hcc' := hr.reordered hc hc'
    rw [hanswer r' c' hr hc', hanswer r c (.refl r) hc]
    cases hfound : c.supertypes.findSome? (find r o) with
    | none =>
      cases hfound' : c'.supertypes.findSome? (find r' o) with
      | none => rfl
      | some b =>
        have hb := h.taken_reordered hr.symm hcc'.symm (h.taken_of_find hfound')
        exact absurd hfound (h.find_ne_none_of_taken hb)
    | some a =>
      have ha := h.taken_of_find hfound
      have hne := h.find_ne_none_of_taken (h.taken_reordered hr hcc' ha)
      obtain ⟨b, hfound'⟩ := Option.ne_none_iff_exists'.1 hne
      have hb := h.taken_reordered hr.symm hcc'.symm (h.taken_of_find hfound')
      rw [hfound']
      simp [isExposed, hagree a b ha hb]

end AnswersOf

/-! ## Fields -/

section Fields

variable {key : FieldKey}

theorem ofMembers_fieldFlags? : OfMembers (·.fieldFlags? key) := fun _ _ => rfl

theorem inheritedFieldFlags?_eq_findSome? :
    r.inheritedFieldFlags? c key =
      c.supertypes.findSome? (r.search (upwards false) (·.fieldFlags? key) [c.descriptor]) := by
  rw [upwards_false]
  exact findSome?_walk

/-- The flags with which the class can take over the field. -/
def TakesField (r : Repository) (key : FieldKey) (c : ClassDef) : AccessFlags → Prop :=
  TakenOver c (r.Leads (·.fieldFlags? key) [c.descriptor])
    (r.ComesFirst (·.fieldFlags? key) [c.descriptor])

theorem answersOf_fields (key : FieldKey) :
    AnswersOf (fun r o => r.search (upwards false) (·.fieldFlags? key) [o])
      (fun r o => r.Leads (·.fieldFlags? key) [o])
      (fun r o => r.ComesFirst (·.fieldFlags? key) [o]) where
  first_of_find := comesFirst_of_search
  find_ne_none := search_ne_none_of_leads
  leads_of_first := ComesFirst.leads
  reordered hr h := h.reordered ofMembers_fieldFlags? hr
  exists_reordered h := exists_reordered_search h ofMembers_fieldFlags? false
  find_withInterfaces _ := search_withInterfaces ofMembers_fieldFlags? (List.mem_singleton_self _)

/-- What is taken over is declared above. -/
theorem TakesField.exists_reaches (h : r.TakesField key c a) :
    ∃ d, r.Reaches c d ∧ d.fieldFlags? key = some a := by
  obtain ⟨t, ht, hfirst⟩ := TakenOver.exists_first h
  obtain ⟨b, d, hb, hreaches, hkey⟩ := hfirst.exists_reaches
  exact ⟨d, .head ⟨t, ht, hb⟩ hreaches, hkey⟩

theorem hasField_of_declares (h : c.fieldFlags? key = some flags) : r.hasField c key = true := by
  rw [hasField, h]
  rfl

theorem hasField_eq_isExposed (hown : c.fieldFlags? key = none) :
    r.hasField c key = isExposed
      (c.supertypes.findSome? (r.search (upwards false) (·.fieldFlags? key) [c.descriptor])) := by
  rw [hasField, hown, ← inheritedFieldFlags?_eq_findSome?]
  rfl

/-- A class gives the same answer about a field in every order if and only if it declares the field,
or all declarations that it can take over agree on being private. -/
theorem hasField_reordered_iff (key : FieldKey) (hc : r.find? c.descriptor = some c) :
    (∀ r' c', r.Reorders r' → r'.find? c.descriptor = some c' →
      r'.hasField c' key = r.hasField c key) ↔
    c.fieldFlags? key ≠ none ∨
      ∀ a b, r.TakesField key c a → r.TakesField key c b → a.isPrivate = b.isPrivate := by
  cases hown : c.fieldFlags? key with
  | some flags =>
    refine iff_of_true (fun r' c' hr hc' => ?_) (.inl (Option.some_ne_none flags))
    obtain ⟨interfaces, -, rfl⟩ := hr.reordered hc hc'
    rw [hasField_of_declares hown]
    exact hasField_of_declares hown
  | none =>
    rw [(answersOf_fields key).agree_iff hc fun r' c' hr hc' => ?_]
    · exact (or_iff_right fun hne => hne rfl).symm
    · obtain ⟨interfaces, -, rfl⟩ := hr.reordered hc hc'
      exact hasField_eq_isExposed hown

end Fields

/-! ## Methods -/

section Methods

variable {key : MethodKey}

/-- What a class finds from one of its supertypes on. -/
def findMethodFrom? (r : Repository) (key : MethodKey) (t : String) : Option AccessFlags :=
  (r.find? t).bind fun b => r.findMethod? b key

theorem inheritedMethodFlags?_eq_findSome? :
    r.inheritedMethodFlags? c key = c.supertypes.findSome? (r.findMethodFrom? key) := by
  unfold inheritedMethodFlags? findMethodFrom?
  induction c.supertypes with
  | nil => rfl
  | cons t types ih =>
    rw [List.filterMap_cons, List.findSome?_cons]
    cases r.find? t with
    | none => exact ih
    | some b => rw [List.findSome?_cons, ih, Option.bind_some]

/-- The type `t` is defined, and a class that it reaches declares the method. -/
def MethodLeads (r : Repository) (key : MethodKey) (t : String) : Prop :=
  ∃ b d, r.find? t = some b ∧ r.Reaches b d ∧ d.methodFlags? key ≠ none

/-- The type `t` is defined, and the flags come first in a search from its class. -/
def MethodFirst (r : Repository) (key : MethodKey) (t : String) (a : AccessFlags) : Prop :=
  ∃ b, r.find? t = some b ∧ r.MethodComesFirst key b a

/-- The flags with which the class can take over the method. -/
def TakesMethod (r : Repository) (key : MethodKey) (c : ClassDef) : AccessFlags → Prop :=
  TakenOver c (r.MethodLeads key) (r.MethodFirst key)

theorem filter_erase {types : List String} {p : String → Bool} (h : p t = false) :
    (types.erase t).filter p = types.filter p := by
  induction types with
  | nil => rfl
  | cons u types ih =>
    rw [List.erase_cons]
    split
    · next hu =>
      rw [List.filter_cons_of_neg]
      rw [beq_iff_eq.1 hu, h]
      exact Bool.false_ne_true
    · rw [List.filter_cons, List.filter_cons, ih]

/-- A class that lists one of its interfaces in front is the same to what passes over that one. -/
theorem alikePast_withInterfaces (hc : r.find? o = some c) (u : String) :
    Option.Rel (AlikePast [t]) (r.find? u)
      ((r.withInterfaces o (t :: c.interfaces.erase t)).find? u) := by
  by_cases hu : u = o
  · subst hu
    rw [find?_withInterfaces_self hc, hc]
    refine .some ⟨_, rfl, ?_⟩
    rw [List.filter_cons_of_neg (by simp), filter_erase (by simp)]
  · rw [find?_withInterfaces_of_ne hu]
    cases r.find? u with
    | none => exact .none
    | some d => exact .some (.refl _ d)

theorem answersOf_methods (key : MethodKey) :
    AnswersOf (fun r _ => r.findMethodFrom? key) (fun r _ => r.MethodLeads key)
      (fun r _ => r.MethodFirst key) where
  first_of_find h := by
    obtain ⟨b, hb, hfound⟩ := Option.bind_eq_some_iff.1 h
    exact ⟨b, hb, methodComesFirst_of_findMethod? (find?_self hb) hfound⟩
  find_ne_none := by
    intro r _ t hleads hnone
    obtain ⟨b, d, hb, hreaches, hkey⟩ := hleads
    rw [findMethodFrom?, hb] at hnone
    exact hkey ((findMethod?_eq_none_iff (find?_self hb)).1 hnone d hreaches)
  leads_of_first h := by
    obtain ⟨b, hb, hfirst⟩ := h
    obtain ⟨d, hreaches, hkey⟩ := hfirst.exists_reaches
    exact ⟨b, d, hb, hreaches, by simp [hkey]⟩
  reordered hr h := by
    obtain ⟨b, hb, hfirst⟩ := h
    obtain ⟨b', hb', hbb'⟩ := exists_of_rel (hr.classes _) hb
    exact ⟨b', hb', hfirst.reordered hr (find?_self hb) hbb' (find?_self hb')⟩
  exists_reordered h := by
    obtain ⟨b, hb, hfirst⟩ := h
    obtain ⟨r', b', hr, hb', hfound⟩ := hfirst.exists_reordered (find?_self hb)
    refine ⟨r', hr, ?_⟩
    rw [findMethodFrom?, ← find?_descriptor hb, hb', Option.bind_some, hfound]
  find_withInterfaces := by
    intro r o t c hc
    have halike := fun u => alikePast_withInterfaces (t := t) hc u
    unfold findMethodFrom?
    cases hb : r.find? t with
    | none => rw [eq_none_of_rel (halike t) hb]; rfl
    | some b =>
      obtain ⟨b', hb', hbb'⟩ := exists_of_rel (halike t) hb
      have hmem : t ∈ r.chainTypes b :=
        List.mem_map.2 ⟨b, mem_superclassesFrom_self, find?_descriptor hb⟩
      rw [hb', Option.bind_some, Option.bind_some]
      exact findMethod?_congr halike hbb' (List.forall_mem_singleton.2 hmem)

theorem hasMethod_of_declares (h : c.methodFlags? key = some flags) : r.hasMethod c key = true := by
  rw [hasMethod, h]
  rfl

theorem hasMethod_of_isSpecial (hown : c.methodFlags? key = none) (hs : isSpecial key = true) :
    r.hasMethod c key = false := by
  rw [hasMethod, hown, hs]
  rfl

theorem hasMethod_eq_isExposed (hown : c.methodFlags? key = none) (hs : isSpecial key = false) :
    r.hasMethod c key = isExposed (c.supertypes.findSome? (r.findMethodFrom? key)) := by
  rw [hasMethod_eq hown hs, ← inheritedMethodFlags?_eq_findSome?]
  rfl

/-- A class gives the same answer about a method in every order if and only if it declares the
method, or no class inherits it, or all declarations that it can take over agree on being private.
-/
theorem hasMethod_reordered_iff (key : MethodKey) (hc : r.find? c.descriptor = some c) :
    (∀ r' c', r.Reorders r' → r'.find? c.descriptor = some c' →
      r'.hasMethod c' key = r.hasMethod c key) ↔
    c.methodFlags? key ≠ none ∨ isSpecial key = true ∨
      ∀ a b, r.TakesMethod key c a → r.TakesMethod key c b → a.isPrivate = b.isPrivate := by
  cases hown : c.methodFlags? key with
  | some flags =>
    refine iff_of_true (fun r' c' hr hc' => ?_) (.inl (Option.some_ne_none flags))
    obtain ⟨interfaces, -, rfl⟩ := hr.reordered hc hc'
    rw [hasMethod_of_declares hown]
    exact hasMethod_of_declares hown
  | none =>
    rw [or_iff_right fun hne => hne rfl]
    cases hs : isSpecial key with
    | true =>
      refine iff_of_true (fun r' c' hr hc' => ?_) (.inl rfl)
      obtain ⟨interfaces, -, rfl⟩ := hr.reordered hc hc'
      rw [hasMethod_of_isSpecial hown hs]
      exact hasMethod_of_isSpecial hown hs
    | false =>
      rw [(answersOf_methods key).agree_iff hc fun r' c' hr hc' => ?_]
      · exact (or_iff_right Bool.false_ne_true).symm
      · obtain ⟨interfaces, -, rfl⟩ := hr.reordered hc hc'
        exact hasMethod_eq_isExposed hown hs

end Methods

/-! ## The answers of a class -/

/-- **When the order of interfaces does not matter.** Let all classes list their interfaces in any
order. A class gives the same answer about a field in every order if and only if it declares the
field, or all declarations that it can take over agree on being private. The same is true of methods
that can be inherited; about those that cannot be the answer does not depend on anything above. -/
theorem exposure_reordered_iff (r : Repository) (c : ClassDef)
    (hc : r.find? c.descriptor = some c) :
    (∀ key : FieldKey,
      (∀ r' c', r.Reorders r' → r'.find? c.descriptor = some c' →
        r'.hasField c' key = r.hasField c key) ↔
      c.fieldFlags? key ≠ none ∨
        ∀ a b, r.TakesField key c a → r.TakesField key c b → a.isPrivate = b.isPrivate) ∧
    (∀ key : MethodKey,
      (∀ r' c', r.Reorders r' → r'.find? c.descriptor = some c' →
        r'.hasMethod c' key = r.hasMethod c key) ↔
      c.methodFlags? key ≠ none ∨ isSpecial key = true ∨
        ∀ a b, r.TakesMethod key c a → r.TakesMethod key c b → a.isPrivate = b.isPrivate) :=
  ⟨fun key => hasField_reordered_iff key hc, fun key => hasMethod_reordered_iff key hc⟩

/-- A class with a superclass and two interfaces. Both interfaces expose a field, and one of them
keeps a method to itself that the superclass exposes. -/
def behindSuperclass : Repository where
  classes := [
    { descriptor := "LC;", superclass := "LS;", interfaces := ["LI;", "LJ;"] },
    { descriptor := "LS;", interfaces := ["LJ;"], methods := [(⟨"LS;", "run", "()V"⟩, ⟨0x1⟩)] },
    { descriptor := "LI;", interfaces := ["LJ;", "LC;"], fields := [(⟨"LI;", "x", "I"⟩, ⟨0x9⟩)],
      methods := [(⟨"LI;", "run", "()V"⟩, ⟨0x2⟩)] },
    { descriptor := "LJ;", fields := [(⟨"LJ;", "x", "I"⟩, ⟨0x19⟩)] }]

/-- All declarations of the field are exposed, and of the method only that of the superclass can be
taken over: the class has both in every order. -/
theorem exposure_reordered_iff_behindSuperclass :
    let c : ClassDef :=
      { descriptor := "LC;", superclass := "LS;", interfaces := ["LI;", "LJ;"] }
    behindSuperclass.find? c.descriptor = some c ∧
    ∀ r' c', behindSuperclass.Reorders r' → r'.find? c.descriptor = some c' →
      r'.hasField c' ⟨"LC;", "x", "I"⟩ = true ∧ r'.hasMethod c' ⟨"LC;", "run", "()V"⟩ = true := by
  intro c
  have hc : behindSuperclass.find? c.descriptor = some c := by decide
  have hfield : behindSuperclass.hasField c ⟨"LC;", "x", "I"⟩ = true := by cbv
  have hmethod : behindSuperclass.hasMethod c ⟨"LC;", "run", "()V"⟩ = true := by cbv
  have hfields : ∀ a, behindSuperclass.TakesField ⟨"LC;", "x", "I"⟩ c a → a.isPrivate = false := by
    intro a ha
    have hall : ∀ d ∈ behindSuperclass.classes,
        (d.fieldFlags? ⟨"LC;", "x", "I"⟩).all (fun f => !f.isPrivate) = true := by decide
    obtain ⟨d, hreaches, hkey⟩ := ha.exists_reaches
    have hd := hall d (mem_of_find? (hreaches.find?_self hc))
    simpa [hkey] using hd
  have hmethods : ∀ a, behindSuperclass.TakesMethod ⟨"LC;", "run", "()V"⟩ c a →
      a.isPrivate = false := by
    intro a ha
    let s : ClassDef :=
      { descriptor := "LS;", interfaces := ["LJ;"], methods := [(⟨"LS;", "run", "()V"⟩, ⟨0x1⟩)] }
    have hs : behindSuperclass.find? "LS;" = some s := by decide
    have hnearest : behindSuperclass.Nearest ⟨"LC;", "run", "()V"⟩ s ⟨0x1⟩ := .here (by decide)
    cases ha with
    | above habove hfirst =>
      obtain rfl := Option.some.inj habove
      obtain ⟨b, hb, hcomes⟩ := hfirst
      obtain rfl := Option.some.inj (hs.symm.trans hb)
      cases hcomes with
      | nearest h =>
        rw [h.unique hnearest]
        decide
      | beside hnone => exact absurd hnearest (hnone _)
    | beside hquiet => exact absurd ⟨s, s, hs, .refl, by decide⟩ (hquiet "LS;" rfl)
  have hiff := exposure_reordered_iff behindSuperclass c hc
  refine ⟨hc, fun r' c' hr hc' => ⟨?_, ?_⟩⟩
  · have hsame := (hiff.1 ⟨"LC;", "x", "I"⟩).2 (.inr fun a b ha hb => by
      rw [hfields a ha, hfields b hb])
    rw [hsame r' c' hr hc', hfield]
  · have hsame := (hiff.2 ⟨"LC;", "run", "()V"⟩).2 (.inr (.inr fun a b ha hb => by
      rw [hmethods a ha, hmethods b hb]))
    rw [hsame r' c' hr hc', hmethod]

/-- A class with two interfaces, listed as given. One keeps a field and a method to itself that the
other one exposes. -/
def twoInterfaces (interfaces : List String) : Repository where
  classes := [
    { descriptor := "LC;", interfaces },
    { descriptor := "LI;", fields := [(⟨"LI;", "x", "I"⟩, ⟨0x2⟩)],
      methods := [(⟨"LI;", "run", "()V"⟩, ⟨0x2⟩)] },
    { descriptor := "LJ;", fields := [(⟨"LJ;", "x", "I"⟩, ⟨0x9⟩)],
      methods := [(⟨"LJ;", "run", "()V"⟩, ⟨0x1⟩)] }]

/-- The interface that is listed first decides. -/
theorem not_exposure_reordered_twoInterfaces :
    let r := twoInterfaces ["LI;", "LJ;"]
    let r' := twoInterfaces ["LJ;", "LI;"]
    let c : ClassDef := { descriptor := "LC;", interfaces := ["LI;", "LJ;"] }
    let c' : ClassDef := { descriptor := "LC;", interfaces := ["LJ;", "LI;"] }
    (r.Reorders r' ∧ r.find? c.descriptor = some c ∧ r'.find? c.descriptor = some c') ∧
    ¬(r'.hasField c' ⟨"LC;", "x", "I"⟩ = r.hasField c ⟨"LC;", "x", "I"⟩) ∧
    ¬(r'.hasMethod c' ⟨"LC;", "run", "()V"⟩ = r.hasMethod c ⟨"LC;", "run", "()V"⟩) := by
  intro r r' c c'
  have hc : r.find? c.descriptor = some c := by decide
  have hc' : r'.find? c.descriptor = some c' := by decide
  have hr : r.Reorders (r.withInterfaces "LC;" ["LJ;", "LI;"]) :=
    (Reorders.refl r).withInterfaces hc (.swap _ _ _)
  have hfields : r.hasField c ⟨"LC;", "x", "I"⟩ = false ∧ r'.hasField c' ⟨"LC;", "x", "I"⟩ = true :=
    ⟨by cbv, by cbv⟩
  have hmethods : r.hasMethod c ⟨"LC;", "run", "()V"⟩ = false ∧
      r'.hasMethod c' ⟨"LC;", "run", "()V"⟩ = true :=
    ⟨by cbv, by cbv⟩
  refine ⟨⟨hr, hc, hc'⟩, ?_, ?_⟩
  · rw [hfields.1, hfields.2]
    decide
  · rw [hmethods.1, hmethods.2]
    decide

end DalvikLinkage.Repository
