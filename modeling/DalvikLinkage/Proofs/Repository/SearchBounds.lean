import DalvikLinkage.Proofs.Repository.FieldLookup
import DalvikLinkage.Proofs.Repository.MethodLookup
import Mathlib.Data.List.Flatten

/-!
# How long a search takes

A walk is the order in which a search would look at classes if it found nothing. How the search goes
through that order is another matter: a search for a field calls itself for the classes above, and a
search for a method keeps a stack of classes to look at. Here both are written out, the first with
the calls that may be open at a time and the second with the classes that may be taken off the
stack, and both give up when these run out. They never do. They find what the walk finds, and they
look at the classes of the walk, each once, up to the one that has the member.

A call for a class that was seen ends at once, so that the open calls but the last are for different
classes. The stack can hold a class many times, but a class is only put there for an edge that leads
to it, and the edges from a class are followed once.

Results:
* `nodup_walk`: a walk visits every class at most once;
* `findFieldWithin_eq`: with as many calls as there are unseen classes, and one more, a search for a
  field follows the walk;
* `popWithin_eq`: with as many pops as there are classes on the stack and edges from unseen classes,
  a search for a method follows the walk;
* `searches_end`: what a search looks at, and that its calls or pops never run out.
-/
namespace DalvikLinkage.Repository

variable {r : Repository} {next : ClassDef → List String} {todo seen : List String}
  {c x : ClassDef} {t : String}

/-! ## What a search looks at -/

/-- The classes that are looked at when those of a list are asked in order until one answers. -/
def asked {α : Type} (f : ClassDef → Option α) : List ClassDef → List ClassDef
  | [] => []
  | c :: rest =>
    match f c with
    | some _ => [c]
    | none => c :: asked f rest

section Asked

variable {α : Type} {f : ClassDef → Option α} {cs ds : List ClassDef}

theorem asked_prefix (f : ClassDef → Option α) (cs : List ClassDef) : asked f cs <+: cs := by
  induction cs with
  | nil => exact List.prefix_rfl
  | cons c cs ih =>
    rw [asked]
    split
    · exact ⟨cs, rfl⟩
    · exact (List.prefix_cons_inj c).2 ih

theorem asked_cons_of_some {a : α} (h : f c = some a) : asked f (c :: cs) = [c] := by
  rw [asked, h]

theorem asked_cons_of_none (h : f c = none) : asked f (c :: cs) = c :: asked f cs := by
  rw [asked, h]

theorem asked_append_of_none (h : cs.findSome? f = none) :
    asked f (cs ++ ds) = cs ++ asked f ds := by
  induction cs with
  | nil => rfl
  | cons c cs ih =>
    obtain ⟨hc, hcs⟩ := List.forall_mem_cons.1 (List.findSome?_eq_none_iff.1 h)
    rw [List.cons_append, asked_cons_of_none hc, ih (List.findSome?_eq_none_iff.2 hcs),
      List.cons_append]

theorem asked_eq_self (h : cs.findSome? f = none) : asked f cs = cs :=
  calc asked f cs
    _ = asked f (cs ++ []) := by rw [List.append_nil]
    _ = cs ++ asked f [] := asked_append_of_none h
    _ = cs := List.append_nil cs

theorem asked_append_of_some {a : α} (h : cs.findSome? f = some a) :
    asked f (cs ++ ds) = asked f cs := by
  induction cs with
  | nil => cases h
  | cons c cs ih =>
    cases hc : f c with
    | some b => rw [List.cons_append, asked_cons_of_some hc, asked_cons_of_some hc]
    | none =>
      rw [List.findSome?_cons, hc] at h
      rw [List.cons_append, asked_cons_of_none hc, asked_cons_of_none hc, ih h]

end Asked

/-- What was seen is not visited, and no class is visited twice. -/
theorem nodup_walk :
    ((r.walk next todo seen).map (·.descriptor)).Nodup ∧
      ∀ x ∈ r.walk next todo seen, x.descriptor ∉ seen := by
  fun_induction walk r next todo seen with
  | case1 => exact ⟨List.nodup_nil, fun _ hx => absurd hx List.not_mem_nil⟩
  | case2 seen t rest hc ih => exact ih
  | case3 seen t rest c hc ht ih => exact ih
  | case4 seen t rest c hc ht _ ih =>
    obtain ⟨hnodup, hunseen⟩ := ih
    have hd := find?_descriptor hc
    refine ⟨List.nodup_cons.2 ⟨fun h => ?_, hnodup⟩, List.forall_mem_cons.2 ⟨?_, fun x hx => ?_⟩⟩
    · obtain ⟨x, hx, hxc⟩ := List.mem_map.1 h
      exact hunseen x hx (hxc.trans hd ▸ List.mem_cons_self)
    · rw [hd]
      exact fun h => ht (List.contains_iff_mem.2 h)
    · exact fun h => hunseen x hx (List.mem_cons_of_mem t h)

/-! ## Searching for a field -/

/-- How far a search for a field has come. -/
structure FieldSearch where
  seen : List String
  /-- The classes whose fields were looked at, in order. -/
  asked : List ClassDef := []

/-- The search has seen a class and looks at its fields. -/
def FieldSearch.ask (s : FieldSearch) (c : ClassDef) : FieldSearch :=
  ⟨c.descriptor :: s.seen, s.asked ++ [c]⟩

/-- Searches from one class after the other until one search finds something. Each goes on from what
the one before has seen. -/
def firstFound (search : ClassDef → FieldSearch → Option (Option AccessFlags × FieldSearch)) :
    List ClassDef → FieldSearch → Option (Option AccessFlags × FieldSearch)
  | [], s => some (none, s)
  | c :: rest, s => do
    match ← search c s with
    | (some flags, s) => return (some flags, s)
    | (none, s) => firstFound search rest s

/-- The search for a field from a class, by calls that are open `calls` deep at most. -/
def findFieldWithin (r : Repository) (key : FieldKey) :
    (calls : Nat) → ClassDef → FieldSearch → Option (Option AccessFlags × FieldSearch)
  | 0, _, _ => none
  | calls + 1, c, s =>
    if c.descriptor ∈ s.seen then some (none, s)
    else
      match c.fieldFlags? key with
      | some flags => some (some flags, s.ask c)
      | none =>
        firstFound (findFieldWithin r key calls) ((nextForField c).filterMap r.find?) (s.ask c)

section FieldSearches

variable {key : FieldKey} {s : FieldSearch} {cs : List ClassDef} {calls : Nat}

theorem asked_foldl_ask : (cs.foldl FieldSearch.ask s).asked = s.asked ++ cs := by
  induction cs generalizing s with
  | nil => exact (List.append_nil _).symm
  | cons c cs ih =>
    rw [List.foldl_cons, ih]
    exact List.append_assoc _ _ _

theorem mem_seen_foldl_ask :
    t ∈ (cs.foldl FieldSearch.ask s).seen ↔ t ∈ cs.map (·.descriptor) ++ s.seen := by
  induction cs generalizing s with
  | nil => rfl
  | cons c cs ih =>
    rw [List.foldl_cons, ih]
    simp only [FieldSearch.ask, List.map_cons, List.mem_append, List.mem_cons]
    tauto

theorem unseen_foldl_ask_le : r.unseen (cs.foldl FieldSearch.ask s).seen ≤ r.unseen s.seen := by
  refine List.countP_mono_left fun x _ hx => ?_
  have hmem : x.descriptor ∈ s.seen → x.descriptor ∈ (cs.foldl FieldSearch.ask s).seen := fun h =>
    mem_seen_foldl_ask.2 (List.mem_append_right _ h)
  simp only [Bool.not_eq_true', List.contains_eq_mem, decide_eq_false_iff_not] at hx ⊢
  exact fun h => hx (hmem h)

/-- What a search through these types comes to if it goes along their walk. -/
def alongWalk (r : Repository) (key : FieldKey) (types : List String) (s : FieldSearch) :
    Option AccessFlags × FieldSearch :=
  (r.searchField? key types s.seen,
    (asked (·.fieldFlags? key) (r.walk nextForField types s.seen)).foldl FieldSearch.ask s)

theorem alongWalk_congr {types types' : List String}
    (h : r.walk nextForField types s.seen = r.walk nextForField types' s.seen) :
    r.alongWalk key types s = r.alongWalk key types' s := by
  rw [alongWalk, alongWalk, searchField?, searchField?, h]

/-- Going along a walk from one type and then along that from the others. -/
theorem alongWalk_cons (r : Repository) (key : FieldKey) (t : String) (todo : List String)
    (s : FieldSearch) :
    r.alongWalk key (t :: todo) s =
      match r.alongWalk key [t] s with
      | (some flags, s) => (some flags, s)
      | (none, s) => r.alongWalk key todo s := by
  have hwalk : r.walk nextForField (t :: todo) s.seen =
      r.walk nextForField [t] s.seen ++ r.walk nextForField todo
        ((r.walk nextForField [t] s.seen).foldl FieldSearch.ask s).seen := by
    rw [← List.singleton_append, walk_append]
    exact congrArg _ (walk_congr fun u => mem_seen_foldl_ask.symm)
  rw [alongWalk, alongWalk, searchField?, searchField?, hwalk, List.findSome?_append]
  cases h : (r.walk nextForField [t] s.seen).findSome? (·.fieldFlags? key) with
  | some flags => rw [asked_append_of_some h, Option.some_or]
  | none =>
    rw [asked_append_of_none h, asked_eq_self h, List.foldl_append, Option.none_or]
    rfl

/-- A search that follows the walk from each of the classes follows their walk. -/
theorem firstFound_eq {search : ClassDef → FieldSearch → Option (Option AccessFlags × FieldSearch)}
    (h : ∀ t c s, r.find? t = some c → r.unseen s.seen < calls →
      search c s = some (r.alongWalk key [t] s)) (hs : r.unseen s.seen < calls) :
    firstFound search (todo.filterMap r.find?) s = some (r.alongWalk key todo s) := by
  induction todo generalizing s with
  | nil =>
    rw [alongWalk, searchField?, walk_nil]
    rfl
  | cons t todo ih =>
    cases hc : r.find? t with
    | none =>
      rw [List.filterMap_cons_none hc, ih hs, alongWalk_congr (walk_cons_of_none hc)]
    | some c =>
      rw [List.filterMap_cons_some hc, firstFound, h t c s hc hs,
        alongWalk_cons r key t todo s]
      have hlater : r.unseen (r.alongWalk key [t] s).2.seen < calls :=
        Nat.lt_of_le_of_lt unseen_foldl_ask_le hs
      generalize r.alongWalk key [t] s = first at hlater ⊢
      obtain ⟨found, s'⟩ := first
      cases found with
      | some flags => rfl
      | none => exact ih hlater

/-- Calls for unseen classes and one more are enough. -/
theorem findFieldWithin_eq (hc : r.find? t = some c) (hs : r.unseen s.seen < calls) :
    r.findFieldWithin key calls c s = some (r.alongWalk key [t] s) := by
  induction calls generalizing t c s with
  | zero => cases hs
  | succ calls ih =>
    obtain rfl := find?_descriptor hc
    rw [findFieldWithin]
    by_cases ht : c.descriptor ∈ s.seen
    · have hnone : r.alongWalk key [c.descriptor] s = (none, s) := by
        rw [alongWalk, searchField?, walk_cons_of_mem ht, walk_nil]
        rfl
      rw [if_pos ht, hnone]
    · -- The call uses up one class that was not seen, so what is left is enough above it.
      have hfewer : r.unseen (s.ask c).seen < calls :=
        Nat.lt_of_lt_of_le (unseen_cons_lt hc (by simpa using ht)) (Nat.le_of_lt_succ hs)
      have hwalk : r.walk nextForField [c.descriptor] s.seen =
          c :: r.walk nextForField (nextForField c) (s.ask c).seen := by
        rw [walk_cons_of_not_mem hc ht, List.append_nil]
        rfl
      rw [if_neg ht, alongWalk, searchField?, hwalk, List.findSome?_cons]
      cases hkey : c.fieldFlags? key with
      | some flags =>
        rw [asked_cons_of_some hkey]
        rfl
      | none =>
        rw [asked_cons_of_none hkey, List.foldl_cons]
        exact firstFound_eq (fun _ _ _ => ih) hfewer

end FieldSearches

/-! ## Searching for a method -/

/-- The direct supertypes of a class that are defined, the superclass first. -/
def directSupertypes (r : Repository) (c : ClassDef) : List ClassDef :=
  c.supertypes.filterMap r.find?

/-- The edges from all classes to superclasses and interfaces that are defined, each by the class
that it leads to. -/
def edges (r : Repository) : List ClassDef :=
  r.classes.flatMap r.directSupertypes

/-- The edges from classes that have not been seen. -/
def unseenEdges (r : Repository) (seen : List String) : List ClassDef :=
  (r.classes.filter fun c => c.descriptor ∉ seen).flatMap r.directSupertypes

/-- Goes through the classes on a stack, the top of which comes first, and puts the supertypes of
each on top of the others. No more than `pops` classes are taken off. -/
def popWithin (r : Repository) (key : MethodKey) :
    (pops : Nat) → (stack : List ClassDef) → (seen : List String) →
      Option (Option AccessFlags × List ClassDef)
  | _, [], _ => some (none, [])
  | 0, _ :: _, _ => none
  | pops + 1, c :: stack, seen =>
    if c.descriptor ∈ seen then popWithin r key pops stack seen
    else
      match c.methodFlags? key with
      | some flags => some (some flags, [c])
      | none => do
        let (found, rest) ← popWithin r key pops ((r.directSupertypes c).reverse ++ stack)
          (c.descriptor :: seen)
        return (found, c :: rest)

/-- The search for a method from a class: the chain of superclasses, and then the interfaces above
it, from a stack. With the answer come the classes whose methods were looked at. -/
def findMethodWithin (r : Repository) (key : MethodKey) (pops : Nat) (c : ClassDef) :
    Option (Option AccessFlags × List ClassDef) :=
  let chain := r.superclassChain c
  match chain.findSome? (·.methodFlags? key) with
  | some flags => some (some flags, asked (·.methodFlags? key) chain)
  | none => do
    let (found, rest) ← r.popWithin key pops
      ((chain.flatMap (·.interfaces)).filterMap r.find?).reverse (chain.map (·.descriptor))
    return (found, chain ++ rest)

section MethodSearches

variable {key : MethodKey} {pops : Nat} {cs : List ClassDef}

/-- Seeing a class uses up the edges from it. -/
theorem unseenEdges_cons_le (hc : c ∈ r.classes) (hseen : c.descriptor ∉ seen) :
    (r.directSupertypes c).length + (r.unseenEdges (c.descriptor :: seen)).length ≤
      (r.unseenEdges seen).length := by
  have hmem : c ∈ r.classes.filter fun x => x.descriptor ∉ seen :=
    List.mem_filter.2 ⟨hc, decide_eq_true hseen⟩
  have hrest : List.Sublist (r.classes.filter fun x => x.descriptor ∉ c.descriptor :: seen)
      ((r.classes.filter fun x => x.descriptor ∉ seen).erase c) := by
    rw [← List.erase_of_not_mem (a := c)
      (l := r.classes.filter fun x => x.descriptor ∉ c.descriptor :: seen) (by simp)]
    refine (List.monotone_filter_right r.classes fun x hx => ?_).erase c
    have hx : x.descriptor ∉ c.descriptor :: seen := of_decide_eq_true hx
    exact decide_eq_true fun h => hx (List.mem_cons_of_mem _ h)
  calc (r.directSupertypes c).length + (r.unseenEdges (c.descriptor :: seen)).length
    _ ≤ (r.directSupertypes c).length + (((r.classes.filter fun x =>
          x.descriptor ∉ seen).erase c).flatMap r.directSupertypes).length :=
      Nat.add_le_add_left (hrest.flatMap _).length_le _
    _ = ((c :: (r.classes.filter fun x => x.descriptor ∉ seen).erase c).flatMap
          r.directSupertypes).length := by rw [List.flatMap_cons, List.length_append]
    _ = (r.unseenEdges seen).length :=
      ((List.perm_cons_erase hmem).flatMap_right _).length_eq.symm

/-- Seeing classes, each for the first time, uses up the edges from all of them. -/
theorem unseenEdges_append_le (hcs : ∀ x ∈ cs, x ∈ r.classes)
    (hnodup : (cs.map (·.descriptor)).Nodup) :
    (cs.flatMap r.directSupertypes).length + (r.unseenEdges (cs.map (·.descriptor))).length ≤
      r.edges.length := by
  induction cs with
  | nil => simp [unseenEdges, edges]
  | cons c cs ih =>
    obtain ⟨hc, hcs⟩ := List.forall_mem_cons.1 hcs
    obtain ⟨hseen, hnodup⟩ := List.nodup_cons.1 hnodup
    have hstep := unseenEdges_cons_le hc hseen
    have hrest := ih hcs hnodup
    rw [List.flatMap_cons, List.length_append, List.map_cons]
    omega

/-- As many pops as there are classes on the stack, and edges by which others can come to be there,
are enough. -/
theorem popWithin_eq
    (hpops : (todo.filterMap r.find?).length + (r.unseenEdges seen).length ≤ pops) :
    r.popWithin key pops (todo.filterMap r.find?) seen =
      some ((r.walk nextForMethod todo seen).findSome? (·.methodFlags? key),
        asked (·.methodFlags? key) (r.walk nextForMethod todo seen)) := by
  fun_induction walk r nextForMethod todo seen generalizing pops with
  | case1 =>
    rw [List.filterMap_nil, popWithin]
    rfl
  | case2 seen t rest hc ih =>
    rw [List.filterMap_cons_none hc] at hpops ⊢
    exact ih hpops
  | case3 seen t rest c hc ht ih =>
    obtain rfl := find?_descriptor hc
    rw [List.filterMap_cons_some hc] at hpops ⊢
    rw [List.length_cons] at hpops
    cases pops with
    | zero => omega
    | succ pops =>
      rw [popWithin, if_pos (List.contains_iff_mem.1 ht)]
      exact ih (by omega)
  | case4 seen t rest c hc ht _ ih =>
    obtain rfl := find?_descriptor hc
    have hseen : c.descriptor ∉ seen := fun h => ht (List.contains_iff_mem.2 h)
    have hstack : (r.directSupertypes c).reverse ++ rest.filterMap r.find? =
        (nextForMethod c ++ rest).filterMap r.find? := by
      rw [nextForMethod, List.filterMap_append, List.filterMap_reverse, directSupertypes]
    -- What comes to be on the stack was counted as edges before.
    have hedges := unseenEdges_cons_le (mem_of_find? hc) hseen
    rw [List.filterMap_cons_some hc] at hpops ⊢
    rw [List.length_cons] at hpops
    cases pops with
    | zero => omega
    | succ pops =>
      rw [popWithin, if_neg hseen, List.findSome?_cons]
      cases hkey : c.methodFlags? key with
      | some flags => rw [asked_cons_of_some hkey]
      | none =>
        have hrest : ((nextForMethod c ++ rest).filterMap r.find?).length +
            (r.unseenEdges (c.descriptor :: seen)).length ≤ pops := by
          rw [← hstack, List.length_append, List.length_reverse]
          omega
        rw [hstack, ih hrest, asked_cons_of_none hkey]
        rfl

/-! ### The chain of superclasses -/

/-- The start has been seen, and no superclass that is taken up has. -/
theorem nodup_superclassesFrom (hc : c.descriptor ∈ seen) :
    ((r.superclassesFrom c seen).map (·.descriptor)).Nodup ∧
      ∀ x ∈ r.superclassesFrom c seen, x = c ∨ x.descriptor ∉ seen := by
  fun_induction superclassesFrom r c seen with
  | case1 => simp
  | case2 => simp
  | case3 => simp
  | case4 c seen t hs s hfind ht _ ih =>
    have hd := find?_descriptor hfind
    obtain ⟨hnodup, hunseen⟩ := ih (hd ▸ List.mem_cons_self)
    have ht' : t ∉ seen := fun h => ht (List.contains_iff_mem.2 h)
    have hafter : ∀ x ∈ r.superclassesFrom s (t :: seen), x.descriptor ∉ seen := by
      intro x hx
      rcases hunseen x hx with rfl | h
      · rwa [hd]
      · exact fun hm => h (List.mem_cons_of_mem t hm)
    refine ⟨List.nodup_cons.2 ⟨fun h => ?_, hnodup⟩,
      List.forall_mem_cons.2 ⟨.inl rfl, fun x hx => .inr (hafter x hx)⟩⟩
    obtain ⟨x, hx, hxc⟩ := List.mem_map.1 h
    exact hafter x hx (hxc ▸ hc)

theorem nodup_superclassChain (r : Repository) (c : ClassDef) :
    ((r.superclassChain c).map (·.descriptor)).Nodup :=
  (nodup_superclassesFrom List.mem_cons_self).1

theorem mem_classes_of_mem_methodOrder (hc : r.find? c.descriptor = some c)
    (hx : x ∈ r.methodOrder c) : x ∈ r.classes :=
  mem_of_find? ((reaches_of_mem_methodOrder hx).find?_self hc)

theorem nodup_methodOrder (r : Repository) (c : ClassDef) :
    ((r.methodOrder c).map (·.descriptor)).Nodup := by
  rw [methodOrder, List.map_append]
  refine List.nodup_append'.2 ⟨nodup_superclassChain r c, nodup_walk.1, fun t hchain hwalk => ?_⟩
  obtain ⟨x, hx, rfl⟩ := List.mem_map.1 hwalk
  exact nodup_walk.2 x hx hchain

theorem length_le_of_nodup (hcs : ∀ x ∈ cs, x ∈ r.classes)
    (hnodup : (cs.map (·.descriptor)).Nodup) : cs.length ≤ r.classes.length :=
  (List.subperm_of_subset (hnodup.of_map _) hcs).length_le

/-- The interfaces of classes are among the ends of the edges from them. -/
theorem filterMap_interfaces_sublist :
    List.Sublist ((cs.flatMap (·.interfaces)).filterMap r.find?)
      (cs.flatMap r.directSupertypes) := by
  rw [List.filterMap_flatMap]
  refine List.Sublist.flatMap_right cs fun x _ => ?_
  rw [directSupertypes, ClassDef.supertypes, List.filterMap_append]
  exact List.sublist_append_right _ _

theorem findMethodWithin_eq (hc : r.find? c.descriptor = some c) :
    r.findMethodWithin key r.edges.length c =
      some (r.findMethod? c key, asked (·.methodFlags? key) (r.methodOrder c)) := by
  have hchain : ∀ x ∈ r.superclassChain c, x ∈ r.classes := fun x hx =>
    mem_classes_of_mem_methodOrder hc (List.mem_append_left _ hx)
  have hedges := unseenEdges_append_le hchain (nodup_superclassChain r c)
  have hpops : (((r.superclassChain c).flatMap (·.interfaces)).reverse.filterMap r.find?).length +
      (r.unseenEdges ((r.superclassChain c).map (·.descriptor))).length ≤ r.edges.length := by
    rw [List.filterMap_reverse, List.length_reverse]
    exact Nat.le_trans (Nat.add_le_add_right filterMap_interfaces_sublist.length_le _) hedges
  rw [findMethodWithin, findMethod?, methodOrder, List.findSome?_append]
  cases h : (r.superclassChain c).findSome? (·.methodFlags? key) with
  | some flags => rw [asked_append_of_some h, Option.some_or]
  | none =>
    rw [asked_append_of_none h, Option.none_or]
    simp only [← List.filterMap_reverse, popWithin_eq hpops]
    rfl

end MethodSearches

/-! ## The bounds -/

/-- The classes that a search for a field looks at are classes of the repository that it had not
seen, and it looks at each of them once. -/
theorem nodup_asked_alongWalk (r : Repository) (key : FieldKey) (types seen : List String) :
    ((r.alongWalk key types ⟨seen, []⟩).2.asked.map (·.descriptor)).Nodup ∧
      ∀ x ∈ (r.alongWalk key types ⟨seen, []⟩).2.asked, x ∈ r.classes ∧ x.descriptor ∉ seen := by
  rw [alongWalk, asked_foldl_ask, List.nil_append]
  have hstart := asked_prefix (·.fieldFlags? key) (r.walk nextForField types seen)
  refine ⟨(hstart.sublist.map _).nodup nodup_walk.1, fun x hx => ?_⟩
  have hx := hstart.subset hx
  exact ⟨mem_of_find? (find?_self_of_mem_walk hx), nodup_walk.2 x hx⟩

/-- **Every search through the hierarchy ends, and soon.** This holds for all repositories, however
their classes lead back to themselves, meet again or lead to types that no class defines. A search
for a field from a class is at most one call deeper than there are classes; it looks at the fields
of each class once at most, and at none of those that it is told to pass over; and the searches from
all supertypes of a class, one after the other, do so together. In a search for a method the chain
of superclasses has different classes, no more than there are; no more classes are taken off the
stack than there are edges in the repository; and the methods of each class are looked at once at
most, on the chain and off it. -/
theorem searches_end (r : Repository) (c : ClassDef) (hc : r.find? c.descriptor = some c)
    (field : FieldKey) (method : MethodKey) :
    (∀ seen, ∃ s, r.findFieldWithin field (r.classes.length + 1) c ⟨seen, []⟩ =
        some (r.searchField? field [c.descriptor] seen, s) ∧
      (s.asked.map (·.descriptor)).Nodup ∧
      ∀ x ∈ s.asked, x ∈ r.classes ∧ x.descriptor ∉ seen) ∧
    (∃ s, firstFound (r.findFieldWithin field (r.classes.length + 1)) (r.directSupertypes c)
        ⟨[c.descriptor], []⟩ = some (r.inheritedFieldFlags? c field, s) ∧
      (s.asked.map (·.descriptor)).Nodup ∧
      ∀ x ∈ s.asked, x ∈ r.classes ∧ x.descriptor ≠ c.descriptor) ∧
    ((r.superclassChain c).map (·.descriptor)).Nodup ∧
    (r.superclassChain c).length ≤ r.classes.length ∧
    ∃ looked, r.findMethodWithin method r.edges.length c = some (r.findMethod? c method, looked) ∧
      (looked.map (·.descriptor)).Nodup ∧ ∀ x ∈ looked, x ∈ r.classes := by
  have hcalls (seen : List String) : r.unseen seen < r.classes.length + 1 :=
    Nat.lt_succ_of_le List.countP_le_length
  refine ⟨fun seen => ?_, ?_, nodup_superclassChain r c, ?_, ?_⟩
  · exact ⟨_, findFieldWithin_eq hc (hcalls seen), nodup_asked_alongWalk r field _ seen⟩
  · have hfound : firstFound (r.findFieldWithin field (r.classes.length + 1))
        (r.directSupertypes c) ⟨[c.descriptor], []⟩ =
        some (r.alongWalk field c.supertypes ⟨[c.descriptor], []⟩) :=
      firstFound_eq (fun _ _ _ => findFieldWithin_eq) (hcalls _)
    obtain ⟨hnodup, hasked⟩ := nodup_asked_alongWalk r field c.supertypes [c.descriptor]
    exact ⟨_, hfound, hnodup, fun x hx => (hasked x hx).imp_right fun h => by simpa using h⟩
  · refine length_le_of_nodup (fun x hx => ?_) (nodup_superclassChain r c)
    exact mem_classes_of_mem_methodOrder hc (List.mem_append_left _ hx)
  · have hstart := asked_prefix (·.methodFlags? method) (r.methodOrder c)
    exact ⟨_, findMethodWithin_eq hc, (hstart.sublist.map _).nodup (nodup_methodOrder r c),
      fun x hx => mem_classes_of_mem_methodOrder hc (hstart.subset hx)⟩

/-- In the circle there are five edges; both classes on the chain lead to the interface, and it
leads back to one of them. -/
theorem searches_end_circle :
    let a : ClassDef := { descriptor := "LA;", superclass := "LB;", interfaces := ["LI;"] }
    circle.find? a.descriptor = some a ∧ circle.edges.length = 5 ∧
    (∃ s, circle.findFieldWithin ⟨"LA;", "max", "I"⟩ 4 a ⟨[], []⟩ = some (some ⟨0x9⟩, s) ∧
      (s.asked.map (·.descriptor)).Nodup) ∧
    ∃ looked, circle.findMethodWithin ⟨"LA;", "run", "()V"⟩ 5 a = some (none, looked) ∧
      (looked.map (·.descriptor)).Nodup := by
  intro a
  have hc : circle.find? a.descriptor = some a := by decide
  have hfield : circle.searchField? ⟨"LA;", "max", "I"⟩ [a.descriptor] [] = some ⟨0x9⟩ := by cbv
  have hmethod : circle.findMethod? a ⟨"LA;", "run", "()V"⟩ = none := by cbv
  have hedges : circle.edges.length = 5 := by decide
  obtain ⟨hfields, -, -, -, looked, hlooked, hnodup, -⟩ :=
    searches_end circle a hc ⟨"LA;", "max", "I"⟩ ⟨"LA;", "run", "()V"⟩
  obtain ⟨s, hs, hasked, -⟩ := hfields []
  rw [hfield] at hs
  rw [hedges, hmethod] at hlooked
  exact ⟨hc, hedges, ⟨s, hs, hasked⟩, looked, hlooked, hnodup⟩

end DalvikLinkage.Repository
