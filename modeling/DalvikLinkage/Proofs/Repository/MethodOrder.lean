import DalvikLinkage.Proofs.Repository.MethodLookup
import DalvikLinkage.Proofs.Repository.Reordering

/-!
# Methods and the order of interfaces

A search for a method looks at the superclasses of its start before any interface, and the order of
interfaces has no part in that. If none of them declares the method, the search goes on from their
interfaces, from those of the highest class first. All superclasses count as seen then, so that no
way up from an interface leads through them.

Results:
* `forall₂_superclassChain`: what reordering does to a chain of superclasses;
* `methodComesFirst_of_findMethod?`: what a search for a method finds can come first;
* `MethodComesFirst.exists_reordered`: whatever can come first is found in some order;
* `findMethod?_congr`: how types on the chain are listed does not matter.
-/
namespace DalvikLinkage.Repository

variable {r r' : Repository} {c c' b b' x : ClassDef} {a : AccessFlags}
  {leads leads' : String → Prop} {first first' : String → AccessFlags → Prop}
  {S : String → Option AccessFlags} {chain chain' : List ClassDef}

/-! ## Chains of superclasses -/

section Chains

variable {R : ClassDef → ClassDef → Prop}

/-- Classes that are related are the same but for their interfaces. -/
def ButInterfaces (R : ClassDef → ClassDef → Prop) : Prop :=
  ∀ c c', R c c' → ∃ interfaces, c' = { c with interfaces }

theorem ButInterfaces.superclass (hR : ButInterfaces R) (h : R c c') :
    c'.superclass = c.superclass := by
  obtain ⟨interfaces, rfl⟩ := hR c c' h
  rfl

theorem ButInterfaces.descriptor (hR : ButInterfaces R) (h : R c c') :
    c'.descriptor = c.descriptor := by
  obtain ⟨interfaces, rfl⟩ := hR c c' h
  rfl

theorem exists_mem_of_forall₂ (h : List.Forall₂ R chain chain') (hc : c' ∈ chain') :
    ∃ c ∈ chain, R c c' := by
  induction h with
  | nil => cases hc
  | cons hd _ ih =>
    rcases List.mem_cons.1 hc with rfl | hc
    · exact ⟨_, List.mem_cons_self, hd⟩
    · obtain ⟨c, hmem, hcc'⟩ := ih hc
      exact ⟨c, List.mem_cons_of_mem _ hmem, hcc'⟩

theorem findSome?_of_forall₂ {f : ClassDef → Option AccessFlags} (hf : OfMembers f)
    (hR : ButInterfaces R) (h : List.Forall₂ R chain chain') :
    chain'.findSome? f = chain.findSome? f := by
  induction h with
  | nil => rfl
  | @cons c c' chain chain' hc _ ih =>
    obtain ⟨interfaces, rfl⟩ := hR c c' hc
    rw [List.findSome?_cons, List.findSome?_cons, hf, ih]

theorem map_descriptor_of_forall₂ (hR : ButInterfaces R) (h : List.Forall₂ R chain chain') :
    chain'.map (·.descriptor) = chain.map (·.descriptor) := by
  induction h with
  | nil => rfl
  | cons hc _ ih => rw [List.map_cons, List.map_cons, hR.descriptor hc, ih]

/-- What is found first from the interfaces of a chain, those of the highest class first. -/
def findBeside (S : String → Option AccessFlags) (chain : List ClassDef) : Option AccessFlags :=
  (chain.flatMap (·.interfaces)).reverse.findSome? S

/-- From the interfaces of a chain of superclasses, those of higher classes before those of lower
ones, the flags `a` can come first. -/
inductive BesideChain (leads : String → Prop) (first : String → AccessFlags → Prop) :
    List ClassDef → AccessFlags → Prop
  | higher {c : ClassDef} {chain : List ClassDef} {a : AccessFlags}
    (h : BesideChain leads first chain a) : BesideChain leads first (c :: chain) a
  | here {c : ClassDef} {chain : List ClassDef} {i : String} {a : AccessFlags}
    (hquiet : ∀ d ∈ chain, ∀ j ∈ d.interfaces, ¬ leads j) (hi : i ∈ c.interfaces)
    (h : first i a) : BesideChain leads first (c :: chain) a

theorem findBeside_cons :
    findBeside S (c :: chain) =
      (findBeside S chain).or ((inDirection true c.interfaces).findSome? S) := by
  unfold findBeside
  rw [List.flatMap_cons, List.reverse_append, List.findSome?_append]
  rfl

theorem findBeside_eq_none_iff :
    findBeside S chain = none ↔ ∀ d ∈ chain, ∀ j ∈ d.interfaces, S j = none := by
  unfold findBeside
  rw [List.findSome?_eq_none_iff]
  simp only [List.mem_reverse, List.mem_flatMap]
  exact ⟨fun h d hd j hj => h j ⟨d, hd, hj⟩, fun h j ⟨d, hd, hj⟩ => h d hd j hj⟩

theorem besideChain_of_findBeside (hleads : ∀ t, leads t → S t ≠ none)
    (hfirst : ∀ t a, S t = some a → first t a) (h : findBeside S chain = some a) :
    BesideChain leads first chain a := by
  induction chain with
  | nil => cases h
  | cons c chain ih =>
    rw [findBeside_cons] at h
    rcases Option.or_eq_some_iff.1 h with hhigher | ⟨hnone, hhere⟩
    · exact .higher (ih hhigher)
    · obtain ⟨i, hi, hfound⟩ := List.exists_of_findSome?_eq_some hhere
      refine .here (fun d hd j hj hj' => ?_) (mem_inDirection.1 hi) (hfirst i a hfound)
      exact hleads j hj' (findBeside_eq_none_iff.1 hnone d hd j hj)

theorem BesideChain.exists_first (h : BesideChain leads first chain a) :
    ∃ c ∈ chain, ∃ i ∈ c.interfaces, first i a := by
  induction h with
  | higher _ ih =>
    obtain ⟨c, hc, hfirst⟩ := ih
    exact ⟨c, List.mem_cons_of_mem _ hc, hfirst⟩
  | here _ hi hfirst => exact ⟨_, List.mem_cons_self, _, hi, hfirst⟩

theorem BesideChain.reordered (h : BesideChain leads first chain a)
    (hchain : List.Forall₂ ClassDef.Reordered chain chain')
    (hleads : ∀ t, leads' t → leads t) (hfirst : ∀ t a, first t a → first' t a) :
    BesideChain leads' first' chain' a := by
  induction h generalizing chain' with
  | higher _ ih =>
    cases hchain with
    | cons _ hrest => exact .higher (ih hrest)
  | here hquiet hi hcomes =>
    cases hchain with
    | cons hc hrest =>
      obtain ⟨interfaces, hperm, rfl⟩ := hc
      refine .here (fun d' hd' j hj hj' => ?_) (hperm.mem_iff.2 hi) (hfirst _ _ hcomes)
      obtain ⟨d, hd, others, hothers, rfl⟩ := exists_mem_of_forall₂ hrest hd'
      exact hquiet d hd j (hothers.mem_iff.1 hj) (hleads j hj')

theorem findBeside_of_forall₂ {skipped : List String}
    (h : List.Forall₂ (AlikePast skipped) chain chain') (hS : ∀ u ∈ skipped, S u = none) :
    findBeside S chain' = findBeside S chain := by
  induction h with
  | nil => rfl
  | cons hc _ ih => rw [findBeside_cons, findBeside_cons, ih, hc.findSome?_interfaces hS]

/-- Whatever can come first from the interfaces of a chain is found in some order. -/
theorem exists_reordered_beside {f : ClassDef → Option AccessFlags} {passed : List String}
    (hf : OfMembers f) (h : BesideChain (r.Leads f passed) (r.ComesFirst f passed) chain a)
    (hchain : ∀ d ∈ chain, r.find? d.descriptor = some d ∧ d.descriptor ∈ passed) :
    ∃ r', r.Reorders r' ∧
      ∀ chain', List.Forall₂ (fun d d' => r'.find? d.descriptor = some d') chain chain' →
        findBeside (r'.search (upwards true) f passed) chain' = some a := by
  induction h with
  | higher _ ih =>
    obtain ⟨r', hr, hfound⟩ := ih fun d hd => hchain d (List.mem_cons_of_mem _ hd)
    refine ⟨r', hr, fun chain' hchain' => ?_⟩
    cases hchain' with
    | cons _ hrest => rw [findBeside_cons, hfound _ hrest, Option.some_or]
  | @here c chain i a hquiet hi hfirst =>
    obtain ⟨r', hr, hfound⟩ := exists_reordered_search hfirst hf true
    obtain ⟨hc, hpassed⟩ := hchain c List.mem_cons_self
    obtain ⟨interfaces, -, hc'⟩ := hr.find? hc
    have hperm := (inDirection_perm true (i :: c.interfaces.erase i)).trans
      (List.perm_cons_erase hi).symm
    have hr' := hr.withInterfaces hc hperm
    refine ⟨_, hr', fun chain' hchain' => ?_⟩
    cases hchain' with
    | cons hhead hrest =>
      obtain rfl := Option.some.inj (hhead.symm.trans (find?_withInterfaces_self hc'))
      rw [findBeside_cons, findBeside_eq_none_iff.2, Option.none_or, inDirection_inDirection,
        List.findSome?_cons, search_withInterfaces hf hpassed, hfound]
      intro d' hd' j hj
      obtain ⟨d, hd, hfind⟩ := exists_mem_of_forall₂ hrest hd'
      obtain ⟨others, hothers, hfind'⟩ := hr'.find? (hchain d (List.mem_cons_of_mem c hd)).1
      obtain rfl := Option.some.inj (hfind.symm.trans hfind')
      refine search_eq_none_iff.2 fun hleads => ?_
      exact hquiet d hd j (hothers.mem_iff.1 hj) (hleads.reordered hf hr'.symm)

end Chains

/-! ## What comes first -/

section Methods

variable {key : MethodKey} {skipped : List String}

theorem ofMembers_methodFlags? : OfMembers (·.methodFlags? key) := fun _ _ => rfl

/-- The types of a class and of its superclasses. -/
def chainTypes (r : Repository) (b : ClassDef) : List String :=
  (r.superclassChain b).map (·.descriptor)

/-- A search for the method from `b` can come to the flags `a` first: they are those of the nearest
declaration among the superclasses, or there is none and they come first from the interfaces of
these. -/
inductive MethodComesFirst (r : Repository) (key : MethodKey) (b : ClassDef) : AccessFlags → Prop
  | nearest {a : AccessFlags} (h : r.Nearest key b a) : MethodComesFirst r key b a
  | beside {a : AccessFlags} (hnone : ∀ flags, ¬ r.Nearest key b flags)
    (h : BesideChain (r.Leads (·.methodFlags? key) (r.chainTypes b))
      (r.ComesFirst (·.methodFlags? key) (r.chainTypes b)) (r.superclassChain b) a) :
    MethodComesFirst r key b a

theorem findMethod?_eq_or :
    r.findMethod? b key = ((r.superclassChain b).findSome? (·.methodFlags? key)).or
      (findBeside (r.search (upwards true) (·.methodFlags? key) (r.chainTypes b))
        (r.superclassChain b)) := by
  unfold findMethod? methodOrder
  rw [List.findSome?_append, findSome?_walk, ← upwards_true]
  rfl

theorem findSome?_superclassChain_eq_none_iff (hb : r.find? b.descriptor = some b) :
    (r.superclassChain b).findSome? (·.methodFlags? key) = none ↔
      ∀ flags, ¬ r.Nearest key b flags := by
  rw [Option.eq_none_iff_forall_ne_some]
  exact forall_congr' fun flags => not_congr (findSome?_superclassChain hb)

theorem methodComesFirst_of_findMethod? (hb : r.find? b.descriptor = some b)
    (h : r.findMethod? b key = some a) : r.MethodComesFirst key b a := by
  rw [findMethod?_eq_or] at h
  rcases Option.or_eq_some_iff.1 h with hnearest | ⟨hnone, hbeside⟩
  · exact .nearest ((findSome?_superclassChain hb).1 hnearest)
  · refine .beside ((findSome?_superclassChain_eq_none_iff hb).1 hnone) ?_
    exact besideChain_of_findBeside (fun _ => search_ne_none_of_leads)
      (fun _ _ => comesFirst_of_search) hbeside

theorem Nearest.exists_reaches (h : r.Nearest key b a) :
    ∃ d, r.Reaches b d ∧ d.methodFlags? key = some a := by
  induction h with
  | here h => exact ⟨_, .refl, h⟩
  | up _ hd _ ih =>
    obtain ⟨d, hreaches, hkey⟩ := ih
    exact ⟨d, .head hd.above hreaches, hkey⟩

theorem MethodComesFirst.exists_reaches (h : r.MethodComesFirst key b a) :
    ∃ d, r.Reaches b d ∧ d.methodFlags? key = some a := by
  cases h with
  | nearest h => exact h.exists_reaches
  | beside _ h =>
    obtain ⟨x, hx, i, hi, hfirst⟩ := h.exists_first
    obtain ⟨c, d, hc, hreaches, hkey⟩ := hfirst.exists_reaches
    have habove : r.Above x c := ⟨i, List.mem_append_right _ hi, hc⟩
    exact ⟨d, (reaches_of_mem_superclassesFrom hx).trans (.head habove hreaches), hkey⟩

theorem forall₂_superclassChain {R : ClassDef → ClassDef → Prop} (hR : ButInterfaces R)
    (h : ∀ t, Option.Rel R (r.find? t) (r'.find? t)) (hb : R b b') :
    List.Forall₂ R (r.superclassChain b) (r'.superclassChain b') := by
  unfold superclassChain
  rw [hR.descriptor hb]
  exact forall₂_superclassesFrom (fun _ _ => hR.superclass) h hb

theorem butInterfaces_reordered : ButInterfaces ClassDef.Reordered := fun _ _ ⟨interfaces, _, h⟩ =>
  ⟨interfaces, h⟩

theorem butInterfaces_alikePast : ButInterfaces (AlikePast skipped) := fun _ _ ⟨interfaces, h, _⟩ =>
  ⟨interfaces, h⟩

theorem MethodComesFirst.reordered (h : r.MethodComesFirst key b a) (hr : r.Reorders r')
    (hb : r.find? b.descriptor = some b) (hbb' : b.Reordered b')
    (hb' : r'.find? b'.descriptor = some b') : r'.MethodComesFirst key b' a := by
  have hchain := forall₂_superclassChain butInterfaces_reordered hr.classes hbb'
  have htypes : r'.chainTypes b' = r.chainTypes b :=
    map_descriptor_of_forall₂ butInterfaces_reordered hchain
  have hnearest : ∀ flags, r'.Nearest key b' flags ↔ r.Nearest key b flags := fun flags => by
    rw [← findSome?_superclassChain hb', ← findSome?_superclassChain hb,
      findSome?_of_forall₂ ofMembers_methodFlags? butInterfaces_reordered hchain]
  cases h with
  | nearest h => exact .nearest ((hnearest a).2 h)
  | beside hnone h =>
    refine .beside (fun flags hn => hnone flags ((hnearest flags).1 hn)) ?_
    rw [htypes]
    exact h.reordered hchain (fun _ hleads => hleads.reordered ofMembers_methodFlags? hr.symm)
      fun _ _ hfirst => hfirst.reordered ofMembers_methodFlags? hr

theorem mem_chain_self (hb : r.find? b.descriptor = some b) (hx : x ∈ r.superclassChain b) :
    r.find? x.descriptor = some x ∧ x.descriptor ∈ r.chainTypes b :=
  ⟨(reaches_of_mem_superclassesFrom hx).find?_self hb, List.mem_map.2 ⟨x, hx, rfl⟩⟩

/-- Whatever a search for a method can come to first is found in some order. -/
theorem MethodComesFirst.exists_reordered (h : r.MethodComesFirst key b a)
    (hb : r.find? b.descriptor = some b) :
    ∃ r' b', r.Reorders r' ∧ r'.find? b.descriptor = some b' ∧ r'.findMethod? b' key = some a := by
  cases h with
  | nearest h => exact ⟨r, b, .refl r, hb, findMethod?_of_nearest hb h⟩
  | beside hnone h =>
    obtain ⟨r', hr, hfound⟩ :=
      exists_reordered_beside ofMembers_methodFlags? h fun x hx => mem_chain_self hb hx
    obtain ⟨b', hb', hbb'⟩ := exists_of_rel (hr.classes b.descriptor) hb
    refine ⟨r', b', hr, hb', ?_⟩
    -- The chains are the same classes, and `r'` finds those of the second one.
    have hbut : ButInterfaces fun d d' => d.Reordered d' ∧ r'.find? d.descriptor = some d' :=
      fun d d' hdd' => butInterfaces_reordered d d' hdd'.1
    have hrel : ∀ t, Option.Rel (fun d d' => d.Reordered d' ∧ r'.find? d.descriptor = some d')
        (r.find? t) (r'.find? t) := fun t => by
      cases hd : r.find? t with
      | none =>
        rw [eq_none_of_rel (hr.classes t) hd]
        exact .none
      | some d =>
        obtain ⟨d', hd', hdd'⟩ := exists_of_rel (hr.classes t) hd
        rw [hd']
        exact .some ⟨hdd', find?_descriptor hd ▸ hd'⟩
    have hchain := forall₂_superclassChain hbut hrel ⟨hbb', hb'⟩
    have htypes : r'.chainTypes b' = r.chainTypes b := map_descriptor_of_forall₂ hbut hchain
    have hnearest := (findSome?_superclassChain_eq_none_iff hb).2 hnone
    rw [findMethod?_eq_or, findSome?_of_forall₂ ofMembers_methodFlags? hbut hchain, hnearest,
      Option.none_or, htypes]
    exact hfound _ (hchain.imp fun _ _ hdd' => hdd'.2)

/-- A search for a method does not notice how types on the chain of its start are listed. -/
theorem findMethod?_congr (h : ∀ t, Option.Rel (AlikePast skipped) (r.find? t) (r'.find? t))
    (hbb' : AlikePast skipped b b') (hskipped : ∀ t ∈ skipped, t ∈ r.chainTypes b) :
    r'.findMethod? b' key = r.findMethod? b key := by
  have hchain := forall₂_superclassChain butInterfaces_alikePast h hbb'
  have htypes : r'.chainTypes b' = r.chainTypes b :=
    map_descriptor_of_forall₂ butInterfaces_alikePast hchain
  have hsearch : r.search (upwards true) (·.methodFlags? key) (r.chainTypes b) =
      r'.search (upwards true) (·.methodFlags? key) (r.chainTypes b) :=
    funext fun _ => search_congr ofMembers_methodFlags? (fun t _ => h t) hskipped
  rw [findMethod?_eq_or, findMethod?_eq_or, htypes, ← hsearch,
    findSome?_of_forall₂ ofMembers_methodFlags? butInterfaces_alikePast hchain,
    findBeside_of_forall₂ hchain fun t ht => search_of_mem (hskipped t ht)]

end Methods

end DalvikLinkage.Repository
