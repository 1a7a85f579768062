import DalvikLinkage.Proofs.Body.Placement

/-!
# Folding one location into another

A merge of two locations comes in four kinds, since either of them may have a list or have none yet.
`list?_merge` says for all of them at once what becomes of the lists, and with what `merge_folds`
says of the items this is all there is: an arena is determined by its views (`ext_of_views`), so
whatever shows in none of them has not changed.

Three locations that follow each other can be folded into the last one from either side. The middle
one goes to the last with or without the items of the first, but the items of the first come to
stand ahead of it both times.

Results:
* `list?_merge`: what a merge makes of each list, with or without lists to begin with;
* `merge_merge`: folding a chain from either side gives the same arena;
* `run_folds`: a merge in any arena that is in use, and what it leaves alone.
-/
namespace DalvikLinkage.Body.Arena

variable {α : Type} {a a' : Arena α} {i : ItemId} {l l' s t u : LocationId}

/-! ## An arena is its views -/

/-- The list of a location, if one has been made. -/
def list? (a : Arena α) (l : LocationId) : Option (List ItemId) :=
  (a.locations[l.number]?).bind (·.items)

theorem itemsAt_eq_getD (a : Arena α) (l : LocationId) : a.itemsAt l = (a.list? l).getD [] := rfl

theorem isAllocated_eq_isSome (a : Arena α) (l : LocationId) :
    a.isAllocated l = (a.list? l).isSome := rfl

/-- What the arena keeps of a location is its index and its list. -/
theorem getElem?_locations_congr (hindex : a'.index? l = a.index? l)
    (hlist : a'.list? l = a.list? l) : a'.locations[l.number]? = a.locations[l.number]? := by
  unfold index? at hindex
  unfold list? at hlist
  cases h : a.locations[l.number]? with
  | none => simpa [h] using hindex
  | some x =>
    cases h' : a'.locations[l.number]? with
    | none => simp [h, h'] at hindex
    | some y =>
      obtain ⟨n, o⟩ := x
      obtain ⟨n', o'⟩ := y
      simp_all

/-- What the arena keeps of an item is its value and its place. -/
theorem getElem?_items_congr (hvalue : a'.value? i = a.value? i)
    (hplace : a'.locationOf? i = a.locationOf? i) : a'.items[i.number]? = a.items[i.number]? := by
  unfold value? at hvalue
  unfold locationOf? at hplace
  cases h : a.items[i.number]? with
  | none => simpa [h] using hvalue
  | some x =>
    cases h' : a'.items[i.number]? with
    | none => simp [h, h'] at hvalue
    | some y =>
      obtain ⟨v, o⟩ := x
      obtain ⟨v', o'⟩ := y
      simp_all

theorem ext_of_views (hkeeps : Keeps a a') (hlist : ∀ l, a'.list? l = a.list? l)
    (hplace : ∀ i, a'.locationOf? i = a.locationOf? i) : a' = a := by
  obtain ⟨locations, items⟩ := a
  obtain ⟨locations', items'⟩ := a'
  congr
  · refine List.ext_getElem? fun n => ?_
    exact getElem?_locations_congr (l := ⟨n⟩) (by rw [index?_eq, index?_eq, hkeeps.indices])
      (hlist ⟨n⟩)
  · refine List.ext_getElem? fun n => ?_
    exact getElem?_items_congr (i := ⟨n⟩) (by rw [value?_eq, value?_eq, hkeeps.values])
      (hplace ⟨n⟩)

/-! ## Lists -/

/-- One list ahead of another, where each of them may not have been made. -/
def ahead : Option (List ItemId) → Option (List ItemId) → Option (List ItemId)
  | none, o => o
  | some items, o => some (items ++ o.getD [])

theorem ahead_assoc (o o' o'' : Option (List ItemId)) :
    ahead (ahead o o') o'' = ahead o (ahead o' o'') := by
  cases o <;> cases o' <;> simp [ahead]

theorem isSome_ahead (o o' : Option (List ItemId)) :
    (ahead o o').isSome = (o.isSome || o'.isSome) := by
  cases o <;> simp [ahead]

theorem list?_setItems (hl : a.HasLocation l) (o : Option (List ItemId)) :
    (a.setItems l o).list? l' = if l' = l then o else a.list? l' := by
  obtain ⟨n⟩ := l; obtain ⟨m⟩ := l'
  have hn : a.locations[n]? = some a.locations[n] := List.getElem?_eq_getElem hl
  simp only [list?, setItems, List.getElem?_modify, LocationId.mk.injEq]
  by_cases h : n = m
  · subst h; simp [hn]
  · simp [h, Ne.symm h]

theorem locations_foldl_setLocation (moved : List ItemId) (o : Option LocationId) :
    (moved.foldl (fun a i => a.setLocation i o) a).locations = a.locations := by
  induction moved generalizing a with
  | nil => rfl
  | cons i rest ih => rw [List.foldl_cons, ih]; rfl

/-- The source loses its list, and the target has both, if there was one at all. -/
theorem list?_merge (hs : a.HasLocation s) (ht : a.HasLocation t) (hne : s ≠ t) (l : LocationId) :
    (a.merge s t).list? l =
      if l = t then ahead (a.list? s) (a.list? t) else if l = s then none else a.list? l := by
  unfold merge
  rw [if_neg hne]
  cases hi : (a.locations[s.number]?).bind (·.items) with
  | none =>
    have hnone : a.list? s = none := hi
    by_cases hlt : l = t
    · simp [hlt, hnone, ahead]
    · by_cases hls : l = s <;> simp [hlt, hls, hnone, hne]
  | some moved =>
    have hsome : a.list? s = some moved := hi
    have hloc := locations_foldl_setLocation (a := a) moved (some t)
    dsimp only
    generalize moved.foldl (fun a i => a.setLocation i (some t)) a = b at hloc
    have hb : ∀ l, b.list? l = a.list? l := fun l => by rw [list?, hloc, list?]
    have hbs : b.HasLocation s := by rwa [HasLocation, hloc]
    have hbt : (b.setItems s none).HasLocation t := by
      rw [hasLocation_iff, indices_setItems, ← hasLocation_iff, HasLocation, hloc]
      exact ht
    rw [list?_setItems hbt, list?_setItems hbs, hb, hsome, itemsAt_eq_getD]
    rfl

/-! ## What a merge leaves alone -/

/-- `a'` is `a` with the items at `s` put ahead of those at `t`. All that is said of other locations
and of other items is that nothing about them has changed. -/
structure FoldsOnly (a a' : Arena α) (s t : LocationId) : Prop where
  target : a'.itemsAt t = a.itemsAt s ++ a.itemsAt t
  source : a'.itemsAt s = [] ∧ a'.isAllocated s = false
  /-- The target gets a list if there was one at all. -/
  allocated : a'.isAllocated t = (a.isAllocated s || a.isAllocated t)
  placed : ∀ i, a'.locationOf? i = some t ↔ i ∈ a.itemsAt s ∨ i ∈ a.itemsAt t
  other_items : ∀ i, i ∉ a.itemsAt s → i ∉ a.itemsAt t → a'.items[i.number]? = a.items[i.number]?
  other_locations : ∀ l, l ≠ s → l ≠ t → a'.locations[l.number]? = a.locations[l.number]?
  value : ∀ i, a'.value? i = a.value? i
  index : ∀ l, a'.index? l = a.index? l

theorem merge_foldsOnly (h : a.Consistent) (hs : a.HasLocation s) (ht : a.HasLocation t)
    (hne : s ≠ t) : FoldsOnly a (a.merge s t) s t := by
  have hf := merge_folds h ht hne
  have hlist := list?_merge hs ht hne
  have hvalue : ∀ i, (a.merge s t).value? i = a.value? i := fun i => by
    rw [value?_eq, value?_eq, hf.values]
  have hindex : ∀ l, (a.merge s t).index? l = a.index? l := fun l => by
    rw [index?_eq, index?_eq, hf.indices]
  refine ⟨?_, ⟨?_, ?_⟩, ?_, fun i => ?_, fun i his _ => ?_, fun l hls hlt => ?_, hvalue, hindex⟩
  · rw [hf.itemsAt, if_pos rfl]
  · rw [hf.itemsAt, if_neg hne, if_pos rfl]
  · rw [isAllocated_eq_isSome, hlist, if_neg hne, if_pos rfl]
    rfl
  · rw [isAllocated_eq_isSome, hlist, if_pos rfl, isSome_ahead]
    rfl
  · rw [hf.locationOf?]
    by_cases his : i ∈ a.itemsAt s <;> simp [his, h.locationOf?_iff]
  · exact getElem?_items_congr (hvalue i) (by rw [hf.locationOf?, if_neg his])
  · exact getElem?_locations_congr (hindex l) (by rw [hlist, if_neg hlt, if_neg hls])

/-! ## Chains -/

/-- **A chain can be folded from either side.** The first location into the second one and this one
into the third, or the second one into the third and then the first: the arena is the same. -/
theorem merge_merge (h : a.Consistent) (hs : a.HasLocation s) (ht : a.HasLocation t)
    (hu : a.HasLocation u) (hst : s ≠ t) (htu : t ≠ u) (hsu : s ≠ u) :
    (a.merge s t).merge t u = (a.merge t u).merge s u := by
  have hst' := merge_folds h ht hst
  have htu' := merge_folds h hu htu
  have hfirst := merge_folds (h.folds hst hst') (hst'.hasLocation.2 hu) htu
  have hsecond := merge_folds (h.folds htu htu') (htu'.hasLocation.2 hu) hsu
  refine ext_of_views ?_ (fun l => ?_) fun i => ?_
  · have hleft := hst'.toKeeps.trans hfirst.toKeeps
    have hright := htu'.toKeeps.trans hsecond.toKeeps
    exact ⟨hleft.values.trans hright.values.symm, hleft.indices.trans hright.indices.symm⟩
  · rw [list?_merge (hst'.hasLocation.2 ht) (hst'.hasLocation.2 hu) htu,
      list?_merge (htu'.hasLocation.2 hs) (htu'.hasLocation.2 hu) hsu]
    simp only [list?_merge hs ht hst, list?_merge ht hu htu]
    by_cases hlu : l = u
    · simp [hlu, hsu, Ne.symm htu, Ne.symm hsu, hst, ahead_assoc]
    · by_cases hlt : l = t
      · simp [hlt, htu, Ne.symm hst]
      · simp [hlu, hlt]
  · rw [hfirst.locationOf?, hsecond.locationOf?, hst'.locationOf?, htu'.locationOf?, hst'.itemsAt,
      htu'.itemsAt]
    by_cases his : i ∈ a.itemsAt s <;> by_cases hit : i ∈ a.itemsAt t <;> simp [his, hit, hst, hsu]

/-! ## Runs -/

/-- **A merge moves one list and nothing else.** Whatever was done to an arena and with cursors on
it, merging a location into itself does nothing. Merging it into another one puts its items, in
their order, ahead of those there and leaves it without items and without a list. Exactly the items
of the two are at the target then. No other location and no other item has changed, and no index and
no value at all. Of three locations in a chain it does not matter which merge comes first. -/
theorem run_folds (ops : List (Op α)) (h : (machine α).AdmitsRun {} ops) :
    let a := ((machine α).run {} ops).arena
    ∀ s t, a.HasLocation s → a.HasLocation t →
      (s = t → a.merge s t = a) ∧
      (s ≠ t → FoldsOnly a (a.merge s t) s t) ∧
      ∀ u, a.HasLocation u → s ≠ t → t ≠ u → s ≠ u →
        (a.merge s t).merge t u = (a.merge t u).merge s u ∧
        ((a.merge s t).merge t u).itemsAt u = a.itemsAt s ++ a.itemsAt t ++ a.itemsAt u := by
  intro a s t hs ht
  have hc : a.Consistent := (Session.inv_run ops h).consistent
  refine ⟨?_, merge_foldsOnly hc hs ht, fun u hu hst htu hsu => ⟨?_, ?_⟩⟩
  · rintro rfl
    exact merge_self a s
  · exact merge_merge hc hs ht hu hst htu hsu
  · have hf := merge_folds hc ht hst
    rw [(merge_folds (hc.folds hst hf) (hf.hasLocation.2 hu) htu).itemsAt, if_pos rfl, hf.itemsAt,
      if_pos rfl, hf.itemsAt, if_neg (Ne.symm htu), if_neg (Ne.symm hsu)]

/-- Three locations, of which the one in the middle has no list. -/
def gap : List (Op String) :=
  [.newLocation 0, .newLocation 1, .newLocation 2, .newItem "start", .newItem "line",
    .newItem "stop", .attach ⟨0⟩ ⟨0⟩, .attach ⟨1⟩ ⟨0⟩, .attach ⟨2⟩ ⟨2⟩]

theorem run_folds_gap :
    let a := ((machine String).run {} gap).arena
    (machine String).AdmitsRun {} gap ∧
    (a.HasLocation ⟨0⟩ ∧ a.HasLocation ⟨1⟩ ∧ a.HasLocation ⟨2⟩ ∧ a.list? ⟨1⟩ = none) ∧
    (a.merge ⟨0⟩ ⟨1⟩).locationOf? ⟨1⟩ = some ⟨1⟩ ∧
    (a.merge ⟨0⟩ ⟨1⟩).locations[2]? = some ⟨2, some [⟨2⟩]⟩ ∧
    (a.merge ⟨0⟩ ⟨1⟩).merge ⟨1⟩ ⟨2⟩ = (a.merge ⟨1⟩ ⟨2⟩).merge ⟨0⟩ ⟨2⟩ := by
  intro a
  have h : (machine String).AdmitsRun {} gap := by decide
  have hlocations : a.HasLocation ⟨0⟩ ∧ a.HasLocation ⟨1⟩ ∧ a.HasLocation ⟨2⟩ := by decide
  obtain ⟨h0, h1, h2⟩ := hlocations
  obtain ⟨-, honly, hchain⟩ := run_folds gap h ⟨0⟩ ⟨1⟩ h0 h1
  have hf := honly (by decide)
  refine ⟨h, ⟨h0, h1, h2, rfl⟩, ?_, ?_, ?_⟩
  · exact (hf.placed ⟨1⟩).2 (by decide)
  · exact (hf.other_locations ⟨2⟩ (by decide) (by decide)).trans rfl
  · exact (hchain ⟨2⟩ h2 (by decide) (by decide) (by decide)).1

end DalvikLinkage.Body.Arena
