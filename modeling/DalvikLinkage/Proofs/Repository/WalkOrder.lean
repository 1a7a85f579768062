import DalvikLinkage.Proofs.Repository.Reach
import Mathlib.Tactic.Tauto

/-!
# The order of a walk

A walk over two lists is the walk over the first and then one over the second that passes over what
the first one visited: this is the depth-first search that hands its set of seen classes from one
search to the next. How the second part depends on the first is the question here, because a search
that takes the parts the other way round visits the same classes in another order.

What a walk has visited is closed under going on. So passing over it takes the visited classes out
of a later walk and changes nothing else: the others keep their order, and none of them is missed.

Results:
* `walk_append`: walking over two lists, one after the other;
* `walk_append_seen_eq_filter`: passing over a closed set of classes takes them out of the walk;
* `findSome?_walk_append`: in a search over two lists, the second search need not know of the first.
-/
namespace DalvikLinkage.Repository

variable {r : Repository} {next : ClassDef → List String} {todo rest seen seen' done : List String}
  {c d x : ClassDef} {t : String}

/-! ## One step -/

@[simp] theorem walk_nil : r.walk next [] seen = [] := by
  rw [walk]

theorem walk_cons_of_none (hc : r.find? t = none) :
    r.walk next (t :: rest) seen = r.walk next rest seen := by
  rw [walk]
  split
  · rfl
  · next c h => rw [hc] at h; cases h

theorem walk_cons_of_mem (ht : t ∈ seen) :
    r.walk next (t :: rest) seen = r.walk next rest seen := by
  rw [walk]
  split
  · rfl
  · rw [dif_pos (List.contains_iff_mem.2 ht)]

theorem walk_cons_of_not_mem (hc : r.find? t = some c) (ht : t ∉ seen) :
    r.walk next (t :: rest) seen = c :: r.walk next (next c ++ rest) (t :: seen) := by
  rw [walk]
  split
  · next h => rw [hc] at h; cases h
  · next c' h =>
    obtain rfl : c = c' := Option.some.inj (hc.symm.trans h)
    rw [dif_neg (fun h => ht (List.contains_iff_mem.1 h))]

/-- Types that no class defines and types that were seen before add nothing to a walk. -/
theorem walk_append_of_passed (h : ∀ t ∈ todo, r.find? t = none ∨ t ∈ seen) :
    r.walk next (todo ++ rest) seen = r.walk next rest seen := by
  induction todo with
  | nil => rfl
  | cons t todo ih =>
    have htail := ih fun u hu => h u (List.mem_cons_of_mem t hu)
    rw [List.cons_append]
    rcases h t List.mem_cons_self with hc | ht
    · rw [walk_cons_of_none hc, htail]
    · rw [walk_cons_of_mem ht, htail]

/-- Only which types were seen matters to a walk. -/
theorem walk_congr (h : ∀ t, t ∈ seen ↔ t ∈ seen') :
    r.walk next todo seen = r.walk next todo seen' := by
  fun_induction walk r next todo seen generalizing seen' with
  | case1 => rw [walk_nil]
  | case2 seen t rest hc ih => rw [walk_cons_of_none hc, ih h]
  | case3 seen t rest c hc ht ih =>
    have ht' : t ∈ seen' := (h t).1 (List.contains_iff_mem.1 ht)
    rw [walk_cons_of_mem ht', ih h]
  | case4 seen t rest c hc ht _ ih =>
    have ht' : t ∉ seen' := fun hm => ht (List.contains_iff_mem.2 ((h t).2 hm))
    have hgrown : ∀ u, u ∈ t :: seen ↔ u ∈ t :: seen' := fun u => by
      rw [List.mem_cons, List.mem_cons, h u]
    rw [walk_cons_of_not_mem hc ht', ih hgrown]

/-! ## One list after another -/

/-- Walking over two lists: what the first walk visits counts as seen in the second. -/
theorem walk_append :
    r.walk next (todo ++ rest) seen =
      r.walk next todo seen ++
        r.walk next rest ((r.walk next todo seen).map (·.descriptor) ++ seen) := by
  fun_induction walk r next todo seen with
  | case1 => rfl
  | case2 seen t todo hc ih => rw [List.cons_append, walk_cons_of_none hc, ih]
  | case3 seen t todo c hc ht ih =>
    rw [List.cons_append, walk_cons_of_mem (List.contains_iff_mem.1 ht), ih]
  | case4 seen t todo c hc ht _ ih =>
    have ht' : t ∉ seen := fun hm => ht (List.contains_iff_mem.2 hm)
    rw [List.cons_append, walk_cons_of_not_mem hc ht', ← List.append_assoc, ih, List.cons_append]
    congr 2
    refine walk_congr fun u => ?_
    simp only [List.map_cons, find?_descriptor hc, List.mem_append, List.mem_cons]
    tauto

/-! ## Passing over what was visited -/

/-- Going on from a class in `done` leads into `done`, to a type that was seen, or nowhere. -/
def Closed (r : Repository) (next : ClassDef → List String) (done seen : List String) : Prop :=
  ∀ c, r.find? c.descriptor = some c → c.descriptor ∈ done →
    ∀ t ∈ next c, r.find? t = none ∨ t ∈ done ++ seen

theorem find?_self_of_mem_walk (h : x ∈ r.walk next todo seen) :
    r.find? x.descriptor = some x := by
  obtain ⟨t, -, c, hc, hcx⟩ := exists_of_mem_walk h
  cases hcx with
  | refl => exact find?_self hc
  | tail _ hx => exact hx.find?_self

theorem mem_walk_of_descriptor (hc : r.find? c.descriptor = some c)
    (h : c.descriptor ∈ (r.walk next todo seen).map (·.descriptor)) :
    c ∈ r.walk next todo seen := by
  obtain ⟨x, hx, hxc⟩ := List.mem_map.1 h
  exact eq_of_descriptor hc (find?_self_of_mem_walk hx) hxc ▸ hx

theorem closed_walk :
    Closed r next ((r.walk next todo seen).map (·.descriptor)) seen := by
  intro c hc hmem t ht
  have hx := mem_walk_of_descriptor hc hmem
  cases hd : r.find? t with
  | none => exact .inl rfl
  | some d =>
    refine .inr (List.mem_append.2 ?_)
    rcases mem_walk_of_step hx ⟨t, ht, hd⟩ with h | h
    · exact .inl (List.mem_map.2 ⟨d, h, find?_descriptor hd⟩)
    · exact .inr (find?_descriptor hd ▸ h)

/-- Passing over a closed set of classes takes them out of a walk and leaves the order of the others
as it is. -/
theorem walk_append_seen_eq_filter (h : Closed r next done seen) :
    r.walk next todo (done ++ seen) =
      (r.walk next todo seen).filter fun c => c.descriptor ∉ done := by
  fun_induction walk r next todo seen with
  | case1 => rw [walk_nil, List.filter_nil]
  | case2 seen t todo hc ih => rw [walk_cons_of_none hc, ih h]
  | case3 seen t todo c hc ht ih =>
    rw [walk_cons_of_mem (List.mem_append_right _ (List.contains_iff_mem.1 ht)), ih h]
  | case4 seen t todo c hc ht _ ih =>
    have hgrown : Closed r next done (t :: seen) := fun c' hc' hm u hu =>
      (h c' hc' hm u hu).imp_right fun hu => by
        simp only [List.mem_append, List.mem_cons] at hu ⊢
        tauto
    have hd := find?_descriptor hc
    by_cases hdone : t ∈ done
    · -- The class is passed over, and so is all that it would have led to.
      have hmem : t ∈ done ++ seen := List.mem_append_left _ hdone
      have hpassed := h c (find?_self hc) (hd ▸ hdone)
      rw [walk_cons_of_mem hmem, List.filter_cons_of_neg (by simpa [hd] using hdone),
        ← ih hgrown, ← walk_append_of_passed hpassed]
      refine walk_congr fun u => ?_
      simp only [List.mem_append, List.mem_cons]
      constructor
      · tauto
      · rintro (hu | rfl | hu)
        · exact .inl hu
        · exact .inl hdone
        · exact .inr hu
    · have ht' : t ∉ done ++ seen := fun hm => by
        rcases List.mem_append.1 hm with hm | hm
        · exact hdone hm
        · exact ht (List.contains_iff_mem.2 hm)
      rw [walk_cons_of_not_mem hc ht', List.filter_cons_of_pos (by simpa [hd] using hdone),
        ← ih hgrown]
      congr 1
      refine walk_congr fun u => ?_
      simp only [List.mem_append, List.mem_cons]
      tauto

/-! ## Searches -/

theorem findSome?_filter_of_forall {α β : Type} {f : α → Option β} {p : α → Bool} {l : List α}
    (h : ∀ a ∈ l, p a = false → f a = none) : (l.filter p).findSome? f = l.findSome? f := by
  induction l with
  | nil => rfl
  | cons a l ih =>
    have htail := ih fun b hb => h b (List.mem_cons_of_mem a hb)
    cases hp : p a with
    | true => rw [List.filter_cons_of_pos hp, List.findSome?_cons, List.findSome?_cons, htail]
    | false =>
      have ha := h a List.mem_cons_self hp
      rw [List.filter_cons_of_neg (by simp [hp]), List.findSome?_cons, ha, htail]

/-- A search over two lists finds what the search over the first one finds, or else what the search
over the second one finds on its own: classes that the first search has visited are passed over, but
nothing was to be found in them. -/
theorem findSome?_walk_append {α : Type} (f : ClassDef → Option α) :
    (r.walk next (todo ++ rest) seen).findSome? f =
      ((r.walk next todo seen).findSome? f).or ((r.walk next rest seen).findSome? f) := by
  rw [walk_append, List.findSome?_append, walk_append_seen_eq_filter closed_walk]
  cases hfirst : (r.walk next todo seen).findSome? f with
  | some a => rfl
  | none =>
    have hvisited := List.findSome?_eq_none_iff.1 hfirst
    rw [Option.none_or, Option.none_or]
    refine findSome?_filter_of_forall fun x hx hdone => ?_
    refine hvisited x (mem_walk_of_descriptor (find?_self_of_mem_walk hx) ?_)
    simpa using hdone

end DalvikLinkage.Repository
