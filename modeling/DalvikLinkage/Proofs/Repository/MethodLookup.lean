import DalvikLinkage.Proofs.Repository.Reach

/-!
# What a search for a method finds

A search goes up the superclasses first and to the interfaces above them afterwards. The
superclasses settle it when one of them declares the method: the nearest such declaration,
`Nearest`, is the one that is found. Otherwise the search still comes to every class above its
start, so that it finds some declaration whenever there is one.

The searches of `hasMethod` start at the direct supertypes of a class, each with nothing seen.

Results:
* `findSome?_superclassChain`: the chain of superclasses finds the nearest declaration;
* `mem_methodOrder_iff`: a search looks at just the classes that its start reaches;
* `findMethod?_eq_none_iff`: it finds nothing if and only if none of them declares the method;
* `hasMethod_over_hierarchy`: what a class answers, in terms of the hierarchy alone.
-/
namespace DalvikLinkage.Repository

open Relation

variable {r : Repository} {seen : List String} {c d s x : ClassDef} {key : MethodKey}
  {flags flags' : AccessFlags}

/-- The superclass of `c` is defined by `d`. -/
def Superclass (r : Repository) (c d : ClassDef) : Prop :=
  ∃ t, c.superclass = some t ∧ r.find? t = some d

/-- Going up from a class by superclasses, the first class that declares the method does so with
these flags. A circle of superclasses comes back to classes that did not declare it, so there is no
need to look out for one. -/
inductive Nearest (r : Repository) (key : MethodKey) : ClassDef → AccessFlags → Prop
  | here {c : ClassDef} {flags : AccessFlags} (h : c.methodFlags? key = some flags) :
    Nearest r key c flags
  | up {c d : ClassDef} {flags : AccessFlags} (h : c.methodFlags? key = none)
    (hd : r.Superclass c d) (hn : Nearest r key d flags) : Nearest r key c flags

theorem Superclass.above (h : r.Superclass c d) : r.Above c d := by
  obtain ⟨t, ht, hd⟩ := h
  exact ⟨t, by simp [ClassDef.supertypes, ht], hd⟩

theorem Superclass.unique (h : r.Superclass c d) (h' : r.Superclass c x) : d = x := by
  obtain ⟨t, ht, hd⟩ := h
  obtain ⟨u, hu, hx⟩ := h'
  obtain rfl : t = u := Option.some.inj (ht.symm.trans hu)
  exact Option.some.inj (hd.symm.trans hx)

theorem above_cases (h : r.Above c d) :
    r.Superclass c d ∨ ∃ t ∈ c.interfaces, r.find? t = some d := by
  obtain ⟨t, ht, hd⟩ := h
  rcases List.mem_append.1 ht with ht | ht
  · exact .inl ⟨t, Option.mem_toList.1 ht, hd⟩
  · exact .inr ⟨t, ht, hd⟩

theorem Nearest.unique (h : r.Nearest key c flags) (h' : r.Nearest key c flags') :
    flags = flags' := by
  induction h with
  | here h =>
    cases h' with
    | here h' => exact Option.some.inj (h.symm.trans h')
    | up h' => rw [h] at h'; cases h'
  | up h hd _ ih =>
    cases h' with
    | here h' => rw [h] at h'; cases h'
    | up _ hx hn => exact ih (hd.unique hx ▸ hn)

/-- If any of the superclasses declares the method, there is a nearest declaration. -/
theorem exists_nearest (h : ReflTransGen r.Superclass c d) (hd : d.methodFlags? key ≠ none) :
    ∃ flags, r.Nearest key c flags := by
  induction h using ReflTransGen.head_induction_on with
  | refl =>
    obtain ⟨flags, hf⟩ := Option.ne_none_iff_exists'.1 hd
    exact ⟨flags, .here hf⟩
  | @head x y hxy _ ih =>
    obtain ⟨flags, hn⟩ := ih
    cases hx : x.methodFlags? key with
    | none => exact ⟨flags, .up hx hxy hn⟩
    | some f => exact ⟨f, .here hx⟩

/-- Classes that are closed under superclasses and of which none declares the method have no nearest
declaration. -/
theorem not_nearest_of_closed {S : ClassDef → Prop} (hS : ∀ x y, S x → r.Superclass x y → S y)
    (hkey : ∀ x, S x → x.methodFlags? key = none) (hc : S c) : ¬ r.Nearest key c flags := by
  intro h
  induction h with
  | here h => rw [hkey _ hc] at h; cases h
  | up _ hd _ ih => exact ih (hS _ _ hc hd)

/-! ## The chain of superclasses -/

theorem mem_superclassesFrom_self : c ∈ r.superclassesFrom c seen := by
  fun_cases superclassesFrom r c seen <;> exact List.mem_cons_self

theorem reaches_of_mem_superclassesFrom (h : x ∈ r.superclassesFrom c seen) : r.Reaches c x := by
  fun_induction superclassesFrom r c seen with
  | case1 => exact List.mem_singleton.1 h ▸ .refl
  | case2 => exact List.mem_singleton.1 h ▸ .refl
  | case3 => exact List.mem_singleton.1 h ▸ .refl
  | case4 c seen t hc s hs _ _ ih =>
    rcases List.mem_cons.1 h with rfl | h
    · exact .refl
    · exact .head (Superclass.above ⟨t, hc, hs⟩) (ih h)

theorem mem_superclassesFrom_of_superclass (hx : x ∈ r.superclassesFrom c seen)
    (hd : r.Superclass x d) : d ∈ r.superclassesFrom c seen ∨ d.descriptor ∈ seen := by
  fun_induction superclassesFrom r c seen with
  | case1 c seen hc =>
    obtain rfl := List.mem_singleton.1 hx
    obtain ⟨t, ht, -⟩ := hd
    rw [hc] at ht; cases ht
  | case2 c seen t hc hs =>
    obtain rfl := List.mem_singleton.1 hx
    obtain ⟨u, hu, hd⟩ := hd
    obtain rfl : t = u := Option.some.inj (hc.symm.trans hu)
    rw [hs] at hd; cases hd
  | case3 c seen t hc s hs ht =>
    obtain rfl := List.mem_singleton.1 hx
    obtain rfl : s = d := Superclass.unique ⟨t, hc, hs⟩ hd
    exact .inr (by rw [find?_descriptor hs]; simpa using ht)
  | case4 c seen t hc s hs _ _ ih =>
    rcases List.mem_cons.1 hx with rfl | hx
    · obtain rfl : s = d := Superclass.unique ⟨t, hc, hs⟩ hd
      exact .inl (List.mem_cons_of_mem x mem_superclassesFrom_self)
    · obtain ⟨u, -, hu⟩ := hd
      refine (mem_cons_or_mem hs (find?_self hu) (ih hx)).imp_left fun h => ?_
      rcases List.mem_cons.1 h with rfl | h
      · exact List.mem_cons_of_mem c mem_superclassesFrom_self
      · exact List.mem_cons_of_mem c h

theorem mem_superclassChain_of_superclass (hc : r.find? c.descriptor = some c)
    (hx : x ∈ r.superclassChain c) (hd : r.Superclass x d) : d ∈ r.superclassChain c := by
  rcases mem_superclassesFrom_of_superclass hx hd with h | h
  · exact h
  · have hdc : d.descriptor = c.descriptor := List.mem_singleton.1 h
    obtain ⟨t, -, ht⟩ := hd
    have hd' := find?_self ht
    rw [hdc, hc] at hd'
    obtain rfl := Option.some.inj hd'
    exact mem_superclassesFrom_self

theorem nearest_of_findSome?
    (h : (r.superclassesFrom c seen).findSome? (·.methodFlags? key) = some flags) :
    r.Nearest key c flags := by
  fun_induction superclassesFrom r c seen with
  | case1 => exact .here (by simpa using h)
  | case2 => exact .here (by simpa using h)
  | case3 => exact .here (by simpa using h)
  | case4 c seen t hc s hs _ _ ih =>
    rw [List.findSome?_cons] at h
    cases hk : c.methodFlags? key with
    | none => rw [hk] at h; exact .up hk ⟨t, hc, hs⟩ (ih h)
    | some f => rw [hk] at h; exact .here (hk.trans h)

/-- The chain of superclasses finds the nearest declaration. -/
theorem findSome?_superclassChain (hc : r.find? c.descriptor = some c) :
    (r.superclassChain c).findSome? (·.methodFlags? key) = some flags ↔
      r.Nearest key c flags := by
  refine ⟨nearest_of_findSome?, fun hn => ?_⟩
  cases h : (r.superclassChain c).findSome? (·.methodFlags? key) with
  | none =>
    have hnone := List.findSome?_eq_none_iff.1 h
    exact absurd hn (not_nearest_of_closed (S := (· ∈ r.superclassChain c))
      (fun _ _ => mem_superclassChain_of_superclass hc) hnone mem_superclassesFrom_self)
  | some f => rw [(nearest_of_findSome? h).unique hn]

/-! ## The order of search -/

theorem step_nextForMethod (r : Repository) : r.Step nextForMethod = r.Above :=
  step_congr fun _ _ => List.mem_reverse

theorem reaches_of_mem_methodOrder (h : x ∈ r.methodOrder s) : r.Reaches s x := by
  rcases List.mem_append.1 h with h | h
  · exact reaches_of_mem_superclassesFrom h
  obtain ⟨t, ht, d, hd, hx⟩ := exists_of_mem_walk h
  rw [step_nextForMethod] at hx
  obtain ⟨y, hy, hty⟩ := List.mem_flatMap.1 (List.mem_reverse.1 ht)
  have hyd : r.Above y d := ⟨t, List.mem_append_right _ hty, hd⟩
  exact (reaches_of_mem_superclassesFrom hy).trans (.head hyd hx)

theorem mem_methodOrder_of_above (hs : r.find? s.descriptor = some s) (hx : x ∈ r.methodOrder s)
    (hd : r.Above x d) : d ∈ r.methodOrder s := by
  have hchain : ∀ {y}, y.descriptor ∈ (r.superclassChain s).map (·.descriptor) →
      r.find? y.descriptor = some y → y ∈ r.methodOrder s := by
    intro y hy hfind
    obtain ⟨z, hz, hzy⟩ := List.mem_map.1 hy
    have hzfind := (reaches_of_mem_superclassesFrom hz).find?_self hs
    rw [hzy, hfind] at hzfind
    exact List.mem_append_left _ (Option.some.inj hzfind ▸ hz)
  rcases List.mem_append.1 hx with hx | hx
  · rcases above_cases hd with hd | ⟨t, ht, hd⟩
    · exact List.mem_append_left _ (mem_superclassChain_of_superclass hs hx hd)
    · have htodo := List.mem_reverse.2 (List.mem_flatMap.2 ⟨x, hx, ht⟩)
      rcases mem_walk_of_todo htodo hd with h | h
      · exact List.mem_append_right _ h
      · rw [← find?_descriptor hd] at h
        exact hchain h (find?_self hd)
  · rcases mem_walk_of_step hx (step_nextForMethod r ▸ hd) with h | h
    · exact List.mem_append_right _ h
    · exact hchain h hd.find?_self

/-- A search looks at just the classes that its start reaches. -/
theorem mem_methodOrder_iff (hs : r.find? s.descriptor = some s) :
    x ∈ r.methodOrder s ↔ r.Reaches s x :=
  ⟨reaches_of_mem_methodOrder, fun h =>
    h.mem_of_closed (S := (· ∈ r.methodOrder s))
      (List.mem_append_left _ mem_superclassesFrom_self) fun _ _ => mem_methodOrder_of_above hs⟩

theorem findMethod?_eq_none_iff (hs : r.find? s.descriptor = some s) :
    r.findMethod? s key = none ↔ ∀ d, r.Reaches s d → d.methodFlags? key = none := by
  rw [findMethod?, List.findSome?_eq_none_iff]
  exact forall_congr' fun d => by rw [mem_methodOrder_iff hs]

theorem exists_of_findMethod? (h : r.findMethod? s key = some flags) :
    ∃ d, r.Reaches s d ∧ d.methodFlags? key = some flags := by
  obtain ⟨d, hd, hkey⟩ := List.exists_of_findSome?_eq_some h
  exact ⟨d, reaches_of_mem_methodOrder hd, hkey⟩

theorem findMethod?_of_nearest (hs : r.find? s.descriptor = some s)
    (h : r.Nearest key s flags) : r.findMethod? s key = some flags := by
  rw [findMethod?, methodOrder, List.findSome?_append, (findSome?_superclassChain hs).2 h]
  rfl

/-! ## The searches from the direct supertypes -/

theorem mem_filterMap_supertypes : d ∈ c.supertypes.filterMap r.find? ↔ r.Above c d :=
  List.mem_filterMap

theorem exists_of_inheritedMethodFlags? (h : r.inheritedMethodFlags? c key = some flags) :
    ∃ d, r.Reaches c d ∧ d.methodFlags? key = some flags := by
  obtain ⟨s, hs, hfound⟩ := List.exists_of_findSome?_eq_some h
  obtain ⟨d, hd, hkey⟩ := exists_of_findMethod? hfound
  exact ⟨d, .head (mem_filterMap_supertypes.1 hs) hd, hkey⟩

theorem inheritedMethodFlags?_ne_none (hcd : r.Above c s) (hd : r.Reaches s d)
    (hkey : d.methodFlags? key ≠ none) : r.inheritedMethodFlags? c key ≠ none := by
  intro h
  have hs := List.findSome?_eq_none_iff.1 h s (mem_filterMap_supertypes.2 hcd)
  exact hkey ((findMethod?_eq_none_iff hcd.find?_self).1 hs d hd)

theorem inheritedMethodFlags?_of_nearest (hkey : c.methodFlags? key = none)
    (h : r.Nearest key c flags) : r.inheritedMethodFlags? c key = some flags := by
  cases h with
  | here h => rw [hkey] at h; cases h
  | up _ hs hn =>
    obtain ⟨t, ht, hs⟩ := hs
    have hfound := findMethod?_of_nearest (find?_self hs) hn
    simp only [inheritedMethodFlags?, ClassDef.supertypes, ht, Option.toList_some,
      List.singleton_append, List.filterMap_cons, hs, List.findSome?_cons, hfound]

theorem isSpecial_iff : isSpecial key = true ↔ key.name.toList.head? = some '<' :=
  beq_iff_eq

/-- What a class answers for a method that can be inherited and that it does not declare. -/
theorem hasMethod_eq (hkey : c.methodFlags? key = none) (hs : isSpecial key = false) :
    r.hasMethod c key = ((r.inheritedMethodFlags? c key).map fun f => !f.isPrivate).getD false := by
  simp [hasMethod, hkey, hs]

/-- **Method exposure over any hierarchy.** A class of the repository has the methods that it
declares, and of the others none that is special. If a superclass declares a method that it can
inherit, the nearest declaration settles it: the class has the method if and only if that one is not
private. In any case it has the method only if a class that it reaches declares it and not as
private, and it does have it if one of these declares it and none as private, however the hierarchy
runs in circles or breaks off. -/
theorem hasMethod_over_hierarchy (r : Repository) (c : ClassDef) (key : MethodKey) :
    (c.methodFlags? key ≠ none → r.hasMethod c key = true) ∧
    (c.methodFlags? key = none →
      (key.name.toList.head? = some '<' → r.hasMethod c key = false) ∧
      (key.name.toList.head? ≠ some '<' →
        (∀ d, ReflTransGen r.Superclass c d → d.methodFlags? key ≠ none →
          ∃ flags, r.Nearest key c flags ∧
            (r.hasMethod c key = true ↔ flags.isPrivate = false)) ∧
        (r.hasMethod c key = true →
          ∃ d flags, r.Reaches c d ∧ d.methodFlags? key = some flags ∧
            flags.isPrivate = false) ∧
        ((∃ d, r.Reaches c d ∧ d.methodFlags? key ≠ none) →
          (∀ d flags, r.Reaches c d → d.methodFlags? key = some flags →
            flags.isPrivate = false) →
          r.hasMethod c key = true))) := by
  refine ⟨fun h => ?_, fun hkey => ⟨fun hs => ?_, fun hs => ?_⟩⟩
  · simp [hasMethod, Option.isSome_iff_ne_none.2 h]
  · simp [hasMethod, hkey, isSpecial_iff.2 hs]
  have hns : isSpecial key = false := Bool.eq_false_iff.2 fun h => hs (isSpecial_iff.1 h)
  rw [hasMethod_eq hkey hns]
  refine ⟨fun d hd hdkey => ?_, fun h => ?_, fun ⟨d, hd, hdkey⟩ hpub => ?_⟩
  · obtain ⟨flags, hn⟩ := exists_nearest hd hdkey
    refine ⟨flags, hn, ?_⟩
    rw [inheritedMethodFlags?_of_nearest hkey hn]
    simp
  · cases hfound : r.inheritedMethodFlags? c key with
    | none => rw [hfound] at h; cases h
    | some flags =>
      obtain ⟨d, hd, hdkey⟩ := exists_of_inheritedMethodFlags? hfound
      rw [hfound] at h
      exact ⟨d, flags, hd, hdkey, by simpa using h⟩
  · rcases ReflTransGen.cases_head hd with rfl | ⟨s, hs, hsd⟩
    · exact absurd hkey hdkey
    obtain ⟨flags, hfound⟩ :=
      Option.ne_none_iff_exists'.1 (inheritedMethodFlags?_ne_none hs hsd hdkey)
    obtain ⟨x, hx, hxkey⟩ := exists_of_inheritedMethodFlags? hfound
    rw [hfound]
    simp [hpub x flags hx hxkey]

/-- Two classes that are each other's superclass: the private method of one hides that of an
interface from the other. -/
example :
    let run : MethodKey := ⟨"LA;", "run", "()V"⟩
    let r : Repository := { classes := [
      { descriptor := "LA;", superclass := "LB;", interfaces := ["LI;"] },
      { descriptor := "LB;", superclass := "LA;", methods := [(run, ⟨0x2⟩)] },
      { descriptor := "LI;", interfaces := ["LA;", "LJ;"], methods := [(run, .isPublic)] }] }
    r.classes.map (r.hasMethod · run) = [false, true, true] := by
  cbv

end DalvikLinkage.Repository
