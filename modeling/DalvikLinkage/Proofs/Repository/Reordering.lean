import DalvikLinkage.Proofs.Repository.Answers

/-!
# Interfaces in another order

Two repositories with the same classes may differ in the order in which the classes list their
interfaces (`Reorders`). A search stops at the first class that gives it something, so what it finds
depends on this order. Which of the answers above a type can be the first one?

A search keeps one list of all classes that it has seen. What it finds is nevertheless the same if
each class is looked at with only the classes on the way to it passed over (`search_eq`): where
another branch was left with nothing found, there was nothing to find. So a search can be followed
along a single way. An answer can be the first one (`ComesFirst`) if some way leads to it on which
no class answers before, and on which the superclass of a class is only taken when nothing is
reached through its interfaces. One reordering brings all interfaces on that way to the front, since
the way comes to no class twice.

Results:
* `search_eq`: a search, with the classes on the way passed over;
* `comesFirst_of_search`: what is found first comes first on some way;
* `exists_reordered_search`: whatever comes first on some way is found first in some order.
-/
namespace DalvikLinkage

/-! ## Reordering -/

/-- The same class, with its interfaces in some order. -/
def ClassDef.Reordered (c c' : ClassDef) : Prop :=
  ∃ interfaces, interfaces.Perm c.interfaces ∧ c' = { c with interfaces }

theorem ClassDef.Reordered.refl (c : ClassDef) : c.Reordered c :=
  ⟨c.interfaces, .refl _, rfl⟩

theorem ClassDef.Reordered.symm {c c' : ClassDef} (h : c.Reordered c') : c'.Reordered c := by
  obtain ⟨interfaces, hperm, rfl⟩ := h
  exact ⟨c.interfaces, hperm.symm, rfl⟩

namespace Repository

/-- The repositories hold the same references and the same classes, but for the order in which each
class lists its interfaces. -/
structure Reorders (r r' : Repository) : Prop where
  classes : ∀ t, Option.Rel ClassDef.Reordered (r.find? t) (r'.find? t)
  fieldReferences : r'.fieldReferences = r.fieldReferences
  methodReferences : r'.methodReferences = r.methodReferences

/-- The repository in which the type `t` lists its interfaces in this way. -/
def withInterfaces (r : Repository) (t : String) (interfaces : List String) : Repository :=
  { r with classes := r.classes.map fun c =>
      if c.descriptor = t then { c with interfaces } else c }

variable {α : Type} {r r' : Repository} {next : ClassDef → List String}
  {f : ClassDef → Option α} {passed skipped todo interfaces : List String} {t u : String}
  {c c' d : ClassDef} {a : α} {backwards : Bool}

theorem Reorders.refl (r : Repository) : r.Reorders r where
  classes t := by
    cases r.find? t with
    | none => exact .none
    | some c => exact .some (.refl c)
  fieldReferences := rfl
  methodReferences := rfl

theorem Reorders.symm (h : r.Reorders r') : r'.Reorders r where
  classes t := by
    have ht := h.classes t
    generalize r.find? t = o, r'.find? t = o' at ht
    cases ht with
    | none => exact .none
    | some hc => exact .some hc.symm
  fieldReferences := h.fieldReferences.symm
  methodReferences := h.methodReferences.symm

theorem Reorders.find? (h : r.Reorders r') (hc : r.find? t = some c) :
    ∃ interfaces, interfaces.Perm c.interfaces ∧ r'.find? t = some { c with interfaces } := by
  obtain ⟨c', hc', interfaces, hperm, rfl⟩ := exists_of_rel (h.classes t) hc
  exact ⟨interfaces, hperm, hc'⟩

theorem Reorders.reordered (h : r.Reorders r') (hc : r.find? t = some c)
    (hc' : r'.find? t = some c') : c.Reordered c' := by
  obtain ⟨interfaces, hperm, hfind⟩ := h.find? hc
  exact ⟨interfaces, hperm, Option.some.inj (hc'.symm.trans hfind)⟩

theorem find?_withInterfaces :
    (r.withInterfaces t interfaces).find? u =
      (r.find? u).map fun c => if c.descriptor = t then { c with interfaces } else c := by
  unfold withInterfaces Repository.find?
  rw [List.find?_map]
  congr 2
  funext c
  show ((if c.descriptor = t then { c with interfaces } else c).descriptor == u) = _
  split <;> rfl

theorem find?_withInterfaces_self (hc : r.find? t = some c) :
    (r.withInterfaces t interfaces).find? t = some { c with interfaces } := by
  rw [find?_withInterfaces, hc, Option.map_some, if_pos (find?_descriptor hc)]

theorem find?_withInterfaces_of_ne (h : u ≠ t) :
    (r.withInterfaces t interfaces).find? u = r.find? u := by
  rw [find?_withInterfaces]
  cases hc : r.find? u with
  | none => rfl
  | some c => rw [Option.map_some, if_neg (find?_descriptor hc ▸ h)]

theorem Reorders.withInterfaces (h : r.Reorders r') (hc : r.find? t = some c)
    (hperm : interfaces.Perm c.interfaces) : r.Reorders (r'.withInterfaces t interfaces) where
  classes u := by
    obtain ⟨other, -, hc'⟩ := h.find? hc
    by_cases hu : u = t
    · subst hu
      rw [find?_withInterfaces_self hc', hc]
      exact .some ⟨interfaces, hperm, rfl⟩
    · rw [find?_withInterfaces_of_ne hu]
      exact h.classes u
  fieldReferences := h.fieldReferences
  methodReferences := h.methodReferences

/-! ## Searches along a way -/

/-- What a search upwards from the type `t` finds first when it passes over some types. -/
def search (r : Repository) (next : ClassDef → List String) (f : ClassDef → Option α)
    (passed : List String) (t : String) : Option α :=
  (r.walk next [t] passed).findSome? f

/-- A list in its order or backwards. -/
def inDirection (backwards : Bool) (types : List String) : List String :=
  if backwards then types.reverse else types

/-- From a class to its interfaces, in their order or backwards, and then to its superclass. -/
def upwards (backwards : Bool) (c : ClassDef) : List String :=
  inDirection backwards c.interfaces ++ c.superclass.toList

theorem mem_inDirection {types : List String} : t ∈ inDirection backwards types ↔ t ∈ types := by
  cases backwards
  · exact Iff.rfl
  · exact List.mem_reverse

theorem inDirection_perm (backwards : Bool) (types : List String) :
    (inDirection backwards types).Perm types := by
  cases backwards
  · exact .refl types
  · exact types.reverse_perm

theorem inDirection_inDirection (backwards : Bool) (types : List String) :
    inDirection backwards (inDirection backwards types) = types := by
  cases backwards
  · rfl
  · exact types.reverse_reverse

theorem filter_inDirection (p : String → Bool) (types : List String) :
    (inDirection backwards types).filter p = inDirection backwards (types.filter p) := by
  cases backwards
  · rfl
  · exact List.filter_reverse

theorem upwards_false : upwards false = nextForField := rfl

theorem upwards_true : upwards true = nextForMethod := by
  funext c
  unfold upwards inDirection nextForMethod ClassDef.supertypes
  rw [if_pos rfl, List.reverse_append]
  cases c.superclass <;> rfl

theorem mem_upwards : t ∈ upwards backwards c ↔ t ∈ c.supertypes := by
  unfold upwards ClassDef.supertypes
  rw [List.mem_append, List.mem_append, mem_inDirection]
  exact or_comm

/-- A walk over several types searches them one after the other. None of them need know what the
others have seen. -/
theorem findSome?_walk :
    (r.walk next todo passed).findSome? f = todo.findSome? (r.search next f passed) := by
  induction todo with
  | nil => rw [walk_nil]; rfl
  | cons t todo ih =>
    rw [← List.singleton_append, findSome?_walk_append, ih, List.singleton_append,
      List.findSome?_cons]
    unfold search
    cases (r.walk next [t] passed).findSome? f <;> rfl

theorem search_of_none (hc : r.find? t = none) : r.search next f passed t = none := by
  rw [search, walk_cons_of_none hc, walk_nil]
  rfl

theorem search_of_mem (ht : t ∈ passed) : r.search next f passed t = none := by
  rw [search, walk_cons_of_mem ht, walk_nil]
  rfl

/-- A search looks at the class and then goes on from it, with the class passed over. -/
theorem search_eq (hc : r.find? t = some c) (ht : t ∉ passed) :
    r.search next f passed t = (f c).or ((next c).findSome? (r.search next f (t :: passed))) := by
  rw [search, walk_cons_of_not_mem hc ht, List.append_nil, List.findSome?_cons, findSome?_walk]
  cases f c <;> rfl

/-- What holds of a type if it holds of all types after it, with that type passed over, holds of
every type: each step leaves fewer classes to come to. -/
theorem search_induction {motive : List String → String → Prop}
    (h : ∀ passed t, (∀ c, r.find? t = some c → t ∉ passed → ∀ u, motive (t :: passed) u) →
      motive passed t) (passed : List String) (t : String) : motive passed t := by
  induction hn : r.unseen passed using Nat.strong_induction_on generalizing passed t with
  | _ n ih =>
    refine h passed t fun c hc ht u => ih _ ?_ (t :: passed) u rfl
    rw [← hn]
    exact unseen_cons_lt hc (by simpa using ht)

/-! ## What can come first -/

/-- From the type `t`, a class that has an answer is reached without passing the types in `passed`.
-/
inductive Leads (r : Repository) (f : ClassDef → Option α) : List String → String → Prop
  | here {passed : List String} {t : String} {c : ClassDef} (hc : r.find? t = some c)
    (ht : t ∉ passed) (hf : f c ≠ none) : Leads r f passed t
  | through {passed : List String} {t u : String} {c : ClassDef} (hc : r.find? t = some c)
    (ht : t ∉ passed) (hu : u ∈ c.supertypes) (h : Leads r f (t :: passed) u) : Leads r f passed t

/-- From the type `t`, without passing the types in `passed`, the answer `a` can be the first: a way
leads to it on which no class has an answer before, and which takes the superclass of a class only
where no answer is reached through its interfaces. -/
inductive ComesFirst (r : Repository) (f : ClassDef → Option α) : List String → String → α → Prop
  | here {passed : List String} {t : String} {c : ClassDef} {a : α} (hc : r.find? t = some c)
    (ht : t ∉ passed) (hf : f c = some a) : ComesFirst r f passed t a
  | interface {passed : List String} {t i : String} {c : ClassDef} {a : α}
    (hc : r.find? t = some c) (ht : t ∉ passed) (hf : f c = none) (hi : i ∈ c.interfaces)
    (h : ComesFirst r f (t :: passed) i a) : ComesFirst r f passed t a
  | superclass {passed : List String} {t s : String} {c : ClassDef} {a : α}
    (hc : r.find? t = some c) (ht : t ∉ passed) (hf : f c = none) (hs : c.superclass = some s)
    (hquiet : ∀ i ∈ c.interfaces, ¬ Leads r f (t :: passed) i)
    (h : ComesFirst r f (t :: passed) s a) : ComesFirst r f passed t a

theorem ComesFirst.leads (h : r.ComesFirst f passed t a) : r.Leads f passed t := by
  induction h with
  | here hc ht hf => exact .here hc ht (by simp [hf])
  | interface hc ht _ hi _ ih => exact .through hc ht (List.mem_append_right _ hi) ih
  | superclass hc ht _ hs _ _ ih =>
    exact .through hc ht (List.mem_append_left _ (by simp [hs])) ih

/-- Whatever comes first is the answer of a class that is reached. -/
theorem ComesFirst.exists_reaches (h : r.ComesFirst f passed t a) :
    ∃ c d, r.find? t = some c ∧ r.Reaches c d ∧ f d = some a := by
  induction h with
  | here hc _ hf => exact ⟨_, _, hc, .refl, hf⟩
  | interface hc _ _ hi _ ih =>
    obtain ⟨b, d, hb, hreaches, hf⟩ := ih
    exact ⟨_, d, hc, .head ⟨_, List.mem_append_right _ hi, hb⟩ hreaches, hf⟩
  | superclass hc _ _ hs _ _ ih =>
    obtain ⟨b, d, hb, hreaches, hf⟩ := ih
    exact ⟨_, d, hc, .head ⟨_, List.mem_append_left _ (by simp [hs]), hb⟩ hreaches, hf⟩

theorem search_ne_none_of_leads (h : r.Leads f passed t) :
    r.search (upwards backwards) f passed t ≠ none := by
  induction h with
  | here hc ht hf =>
    rw [search_eq hc ht]
    intro hnone
    exact hf (Option.or_eq_none_iff.1 hnone).1
  | through hc ht hu _ ih =>
    rw [search_eq hc ht]
    intro hnone
    have hall := List.findSome?_eq_none_iff.1 (Option.or_eq_none_iff.1 hnone).2
    exact ih (hall _ (mem_upwards.2 hu))

theorem mem_interfaces_of_upwards {before after : List String}
    (h : upwards backwards c = before ++ t :: after) :
    t ∈ c.interfaces ∨ c.superclass = some t ∧ ∀ i ∈ c.interfaces, i ∈ before := by
  rcases List.append_eq_append_iff.1 h with ⟨others, hbefore, hs⟩ | ⟨others, hsplit, hs⟩
  · have ht : t ∈ c.superclass.toList := hs ▸ List.mem_append_right _ List.mem_cons_self
    refine .inr ⟨Option.mem_toList.1 ht, fun i hi => ?_⟩
    rw [hbefore]
    exact List.mem_append_left _ (mem_inDirection.2 hi)
  cases others with
  | nil =>
    have ht : t ∈ c.superclass.toList := by rw [← List.nil_append c.superclass.toList, ← hs]; simp
    refine .inr ⟨Option.mem_toList.1 ht, fun i hi => ?_⟩
    rw [← List.append_nil before, ← hsplit]
    exact mem_inDirection.2 hi
  | cons i others =>
    obtain ⟨rfl, -⟩ := List.cons.inj hs
    have hi : t ∈ inDirection backwards c.interfaces := by
      rw [hsplit]
      exact List.mem_append_right _ List.mem_cons_self
    exact .inl (mem_inDirection.1 hi)

/-- What is found first comes first on some way. -/
theorem comesFirst_of_search (h : r.search (upwards backwards) f passed t = some a) :
    r.ComesFirst f passed t a := by
  induction passed, t using search_induction (r := r) with
  | _ passed t ih =>
  cases hc : r.find? t with
  | none => rw [search_of_none hc] at h; cases h
  | some c =>
    by_cases ht : t ∈ passed
    · rw [search_of_mem ht] at h; cases h
    rw [search_eq hc ht] at h
    rcases Option.or_eq_some_iff.1 h with hf | ⟨hf, hnext⟩
    · exact .here hc ht hf
    obtain ⟨before, u, after, hsplit, hu, hbefore⟩ := List.findSome?_eq_some_iff.1 hnext
    have hfirst := ih c hc ht u hu
    rcases mem_interfaces_of_upwards hsplit with hi | ⟨hs, hall⟩
    · exact .interface hc ht hf hi hfirst
    · refine .superclass hc ht hf hs (fun i hi hleads => ?_) hfirst
      exact search_ne_none_of_leads hleads (hbefore i (hall i hi))

theorem search_eq_none_iff :
    r.search (upwards backwards) f passed t = none ↔ ¬ r.Leads f passed t := by
  constructor
  · intro h hleads
    exact search_ne_none_of_leads hleads h
  · intro h
    by_contra hne
    obtain ⟨a, ha⟩ := Option.ne_none_iff_exists'.1 hne
    exact h (comesFirst_of_search ha).leads

/-! ## The same ways in every order -/

/-- The answer of a class is a matter of its members, and not of its interfaces. -/
def OfMembers (f : ClassDef → Option α) : Prop :=
  ∀ (c : ClassDef) interfaces, f { c with interfaces } = f c

theorem mem_supertypes_of_perm (h : interfaces.Perm c.interfaces) :
    t ∈ ClassDef.supertypes { c with interfaces } ↔ t ∈ c.supertypes := by
  unfold ClassDef.supertypes
  rw [List.mem_append, List.mem_append, h.mem_iff]

theorem Leads.reordered (h : r.Leads f passed t) (hf : OfMembers f) (hr : r.Reorders r') :
    r'.Leads f passed t := by
  induction h with
  | here hc ht hanswer =>
    obtain ⟨interfaces, -, hc'⟩ := hr.find? hc
    exact .here hc' ht (by rwa [hf])
  | through hc ht hu _ ih =>
    obtain ⟨interfaces, hperm, hc'⟩ := hr.find? hc
    exact .through hc' ht ((mem_supertypes_of_perm hperm).2 hu) ih

theorem ComesFirst.reordered (h : r.ComesFirst f passed t a) (hf : OfMembers f)
    (hr : r.Reorders r') : r'.ComesFirst f passed t a := by
  induction h with
  | here hc ht hanswer =>
    obtain ⟨interfaces, -, hc'⟩ := hr.find? hc
    exact .here hc' ht (by rwa [hf])
  | interface hc ht hanswer hi _ ih =>
    obtain ⟨interfaces, hperm, hc'⟩ := hr.find? hc
    exact .interface hc' ht (by rwa [hf]) (hperm.mem_iff.2 hi) ih
  | superclass hc ht hanswer hs hquiet _ ih =>
    obtain ⟨interfaces, hperm, hc'⟩ := hr.find? hc
    refine .superclass hc' ht (by rwa [hf]) hs (fun i hi hleads => ?_) ih
    exact hquiet i (hperm.mem_iff.1 hi) (hleads.reordered hf hr.symm)

/-! ## Finding it first -/

/-- The same class, but for its interfaces; they are the same where some types are left out. -/
def AlikePast (skipped : List String) (c c' : ClassDef) : Prop :=
  ∃ interfaces, c' = { c with interfaces } ∧
    (interfaces.filter fun i => i ∉ skipped) = c.interfaces.filter fun i => i ∉ skipped

theorem AlikePast.refl (skipped : List String) (c : ClassDef) : AlikePast skipped c c :=
  ⟨c.interfaces, rfl, rfl⟩

theorem AlikePast.findSome?_interfaces {g : String → Option α} (h : AlikePast skipped c c')
    (hg : ∀ u ∈ skipped, g u = none) :
    (inDirection backwards c.interfaces).findSome? g =
      (inDirection backwards c'.interfaces).findSome? g := by
  obtain ⟨interfaces, rfl, hsame⟩ := h
  have hleft : ∀ types : List String,
      (types.filter fun i => i ∉ skipped).findSome? g = types.findSome? g := fun types =>
    findSome?_filter_of_forall fun u _ hu => hg u (by simpa using hu)
  rw [← hleft, ← hleft (inDirection backwards interfaces), filter_inDirection, filter_inDirection,
    hsame]

theorem AlikePast.findSome?_upwards {g : String → Option α} (h : AlikePast skipped c c')
    (hg : ∀ u ∈ skipped, g u = none) :
    (upwards backwards c).findSome? g = (upwards backwards c').findSome? g := by
  have hs : c'.superclass = c.superclass := by
    obtain ⟨interfaces, rfl, -⟩ := h
    rfl
  unfold upwards
  rw [List.findSome?_append, List.findSome?_append, h.findSome?_interfaces hg, hs]

/-- A search does not notice how types that it passes over are listed, or what they are. -/
theorem search_congr (hf : OfMembers f)
    (h : ∀ u, u ∉ skipped → Option.Rel (AlikePast skipped) (r.find? u) (r'.find? u))
    (hskipped : ∀ u ∈ skipped, u ∈ passed) :
    r.search (upwards backwards) f passed t = r'.search (upwards backwards) f passed t := by
  induction passed, t using search_induction (r := r) with
  | _ passed t ih =>
  by_cases ht : t ∈ passed
  · rw [search_of_mem ht, search_of_mem ht]
  have halike := h t fun hm => ht (hskipped t hm)
  cases hc : r.find? t with
  | none => rw [search_of_none hc, search_of_none (eq_none_of_rel halike hc)]
  | some c =>
    obtain ⟨c', hc', hcc'⟩ := exists_of_rel halike hc
    have hsame : f c' = f c := by
      obtain ⟨interfaces, rfl, -⟩ := hcc'
      exact hf c interfaces
    have hgrown : ∀ u ∈ skipped, u ∈ t :: passed := fun u hu =>
      List.mem_cons_of_mem t (hskipped u hu)
    have hafter : r.search (upwards backwards) f (t :: passed) =
        r'.search (upwards backwards) f (t :: passed) :=
      funext fun u => ih c hc ht u hgrown
    rw [search_eq hc ht, search_eq hc' ht, hsame, hafter,
      hcc'.findSome?_upwards fun u hu => search_of_mem (hgrown u hu)]

theorem search_withInterfaces (hf : OfMembers f) (ht : t ∈ passed) :
    (r.withInterfaces t interfaces).search (upwards backwards) f passed u =
      r.search (upwards backwards) f passed u := by
  refine (search_congr hf (fun v hv => ?_) (List.forall_mem_singleton.2 ht)).symm
  rw [find?_withInterfaces_of_ne fun h => hv (List.mem_singleton.2 h)]
  cases r.find? v with
  | none => exact .none
  | some c => exact .some (.refl _ c)

/-- Whatever comes first on some way is found first in some order. -/
theorem exists_reordered_search (h : r.ComesFirst f passed t a) (hf : OfMembers f)
    (backwards : Bool) :
    ∃ r', r.Reorders r' ∧ r'.search (upwards backwards) f passed t = some a := by
  induction h with
  | here hc ht hanswer =>
    refine ⟨r, .refl r, ?_⟩
    rw [search_eq hc ht, hanswer, Option.some_or]
  | @interface passed t i c a hc ht hanswer hi _ ih =>
    obtain ⟨r', hr, hfound⟩ := ih
    obtain ⟨interfaces, -, hc'⟩ := hr.find? hc
    -- The way comes to `t` only once, so the interface that it takes there can be put in front.
    have hperm := (inDirection_perm backwards (i :: c.interfaces.erase i)).trans
      (List.perm_cons_erase hi).symm
    refine ⟨_, hr.withInterfaces hc hperm, ?_⟩
    rw [search_eq (find?_withInterfaces_self hc') ht, hf, hf, hanswer, Option.none_or, upwards,
      inDirection_inDirection, List.cons_append, List.findSome?_cons,
      search_withInterfaces hf List.mem_cons_self, hfound]
  | superclass hc ht hanswer hs hquiet _ ih =>
    obtain ⟨r', hr, hfound⟩ := ih
    obtain ⟨interfaces, hperm, hc'⟩ := hr.find? hc
    refine ⟨r', hr, ?_⟩
    have hnone : (inDirection backwards interfaces).findSome?
        (r'.search (upwards backwards) f (_ :: _)) = none :=
      List.findSome?_eq_none_iff.2 fun i hi => search_eq_none_iff.2 fun hleads =>
        hquiet i (hperm.mem_iff.1 (mem_inDirection.1 hi)) (hleads.reordered hf hr.symm)
    rw [search_eq hc' ht, hf, hanswer, Option.none_or, upwards, List.findSome?_append, hnone,
      Option.none_or, hs, Option.toList_some, List.findSome?_singleton, hfound]

end Repository
end DalvikLinkage
