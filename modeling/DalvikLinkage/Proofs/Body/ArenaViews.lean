import DalvikLinkage.Body.Cursor
import Mathlib.Data.List.Nodup

/-!
# What the operations of an arena show

An arena is looked at through its views: the items at a location, where an item is, the values of
all items and the indices of all locations. Here every operation is described once by what it does
to the views. An item that is put somewhere (`Puts`) or taken away (`Takes`) and a location that is
folded into another (`Folds`) keep all values and indices (`Keeps`).

That an operation takes away just the item it names depends on lists and back-references telling
the same story, `Consistent`.

Results:
* `attach_puts`, `add_cases`: attaching puts the item at the end of one list;
* `detach_takes`, `remove_takes`: detaching and removing at a cursor take the item from the one list
  that has it;
* `merge_folds`: merging puts one list ahead of another and leaves nothing behind;
* `Consistent.puts`, `Consistent.takes`, `Consistent.folds`: all of them keep `Consistent`.
-/
namespace DalvikLinkage.Body.Arena

variable {α : Type} {a a' : Arena α} {i j : ItemId} {l l' s t : LocationId}

/-- The arena has given out the item's handle. -/
def HasItem (a : Arena α) (i : ItemId) : Prop :=
  i.number < a.items.length

/-- The arena has given out the location's handle. -/
def HasLocation (a : Arena α) (l : LocationId) : Prop :=
  l.number < a.locations.length

instance : Decidable (a.HasItem i) :=
  inferInstanceAs (Decidable (_ < _))

instance : Decidable (a.HasLocation l) :=
  inferInstanceAs (Decidable (_ < _))

/-- The values of all items, by their numbers. -/
def values (a : Arena α) : List α :=
  a.items.map (·.value)

/-- The indices of all locations, by their numbers. -/
def indices (a : Arena α) : List Nat :=
  a.locations.map (·.index)

theorem value?_eq (a : Arena α) (i : ItemId) : a.value? i = a.values[i.number]? := by
  simp [value?, values]

theorem index?_eq (a : Arena α) (l : LocationId) : a.index? l = a.indices[l.number]? := by
  simp [index?, indices]

theorem hasItem_iff : a.HasItem i ↔ i.number < a.values.length := by
  simp [HasItem, values]

theorem hasLocation_iff : a.HasLocation l ↔ l.number < a.indices.length := by
  simp [HasLocation, indices]

theorem hasItem_of_locationOf? (h : a.locationOf? i = some l) : a.HasItem i := by
  by_contra hn
  simp [locationOf?, List.getElem?_eq_none (Nat.le_of_not_lt hn)] at h

theorem hasLocation_of_mem (h : i ∈ a.itemsAt l) : a.HasLocation l := by
  by_contra hn
  simp [itemsAt, List.getElem?_eq_none (Nat.le_of_not_lt hn)] at h

theorem hasLocation_of_index? {n : Nat} (h : a.index? l = some n) : a.HasLocation l := by
  rw [index?_eq] at h
  exact hasLocation_iff.2 (List.getElem?_eq_some_iff.1 h).1

/-! ## The smallest changes -/

theorem map_modify {β γ : Type} {f : β → γ} {g : β → β} {h : γ → γ} (hf : ∀ x, f (g x) = h (f x))
    (xs : List β) (n : Nat) : (xs.modify n g).map f = (xs.map f).modify n h := by
  refine List.ext_getElem? fun m => ?_
  rw [List.getElem?_map, List.getElem?_modify, List.getElem?_modify, List.getElem?_map]
  cases xs[m]? with
  | none => rfl
  | some x => by_cases hm : n = m <;> simp [hm, hf]

@[simp] theorem itemsAt_setLocation (o : Option LocationId) :
    (a.setLocation i o).itemsAt l = a.itemsAt l := rfl

@[simp] theorem locationOf?_setItems (o : Option (List ItemId)) :
    (a.setItems l o).locationOf? i = a.locationOf? i := rfl

@[simp] theorem locationOf?_setIndex (n : Nat) :
    (a.setIndex l n).locationOf? i = a.locationOf? i := rfl

@[simp] theorem itemsAt_setIndex (n : Nat) : (a.setIndex l n).itemsAt l' = a.itemsAt l' := by
  simp only [itemsAt, setIndex, List.getElem?_modify]
  cases a.locations[l'.number]? <;> simp; split <;> rfl

@[simp] theorem itemsAt_setValue (v : α) : (a.setValue i v).itemsAt l = a.itemsAt l := rfl

@[simp] theorem locationOf?_setValue (v : α) :
    (a.setValue i v).locationOf? j = a.locationOf? j := by
  simp only [locationOf?, setValue, List.getElem?_modify]
  cases a.items[j.number]? <;> simp; split <;> rfl

@[simp] theorem itemsAt_newLocation (n : Nat) :
    (a.newLocation n).2.itemsAt l = a.itemsAt l := by
  simp only [itemsAt, newLocation, List.getElem?_append]
  split
  · rfl
  · rename_i h
    rw [List.getElem?_eq_none (Nat.le_of_not_lt h)]
    cases l.number - a.locations.length <;> rfl

@[simp] theorem locationOf?_newLocation (n : Nat) :
    (a.newLocation n).2.locationOf? i = a.locationOf? i := rfl

@[simp] theorem itemsAt_newItem (v : α) : (a.newItem v).2.itemsAt l = a.itemsAt l := rfl

@[simp] theorem locationOf?_newItem (v : α) :
    (a.newItem v).2.locationOf? i = a.locationOf? i := by
  simp only [locationOf?, newItem, List.getElem?_append]
  split
  · rfl
  · rename_i h
    rw [List.getElem?_eq_none (Nat.le_of_not_lt h)]
    cases i.number - a.items.length <;> rfl

theorem locationOf?_setLocation (hi : a.HasItem i) (o : Option LocationId) :
    (a.setLocation i o).locationOf? j = if j = i then o else a.locationOf? j := by
  obtain ⟨n⟩ := i; obtain ⟨m⟩ := j
  have hn : a.items[n]? = some a.items[n] := List.getElem?_eq_getElem hi
  simp only [locationOf?, setLocation, List.getElem?_modify, ItemId.mk.injEq]
  by_cases h : n = m
  · subst h; simp [hn]
  · simp [h, Ne.symm h]

theorem itemsAt_setItems (hl : a.HasLocation l) (o : Option (List ItemId)) :
    (a.setItems l o).itemsAt l' = if l' = l then o.getD [] else a.itemsAt l' := by
  obtain ⟨n⟩ := l; obtain ⟨m⟩ := l'
  have hn : a.locations[n]? = some a.locations[n] := List.getElem?_eq_getElem hl
  simp only [itemsAt, setItems, List.getElem?_modify, LocationId.mk.injEq]
  by_cases h : n = m
  · subst h; simp [hn]
  · simp [h, Ne.symm h]

theorem itemsAt_setItems_self (hl : a.HasLocation l) (items : List ItemId) :
    (a.setItems l (some items)).itemsAt l = items := by
  rw [itemsAt_setItems hl, if_pos rfl, Option.getD_some]

/-- The new location has the index it was asked for; the others keep theirs. -/
@[simp] theorem indices_newLocation (n : Nat) :
    (a.newLocation n).2.indices = a.indices ++ [n] := by
  simp [indices, newLocation]

theorem HasLocation.newLocation (h : a.HasLocation l) (n : Nat) :
    (a.newLocation n).2.HasLocation l := by
  rw [hasLocation_iff] at h ⊢
  rw [indices_newLocation, List.length_append]
  omega

@[simp] theorem values_newLocation (n : Nat) : (a.newLocation n).2.values = a.values := rfl

@[simp] theorem values_newItem (v : α) : (a.newItem v).2.values = a.values ++ [v] := by
  simp [values, newItem]

@[simp] theorem indices_newItem (v : α) : (a.newItem v).2.indices = a.indices := rfl

@[simp] theorem values_setIndex (n : Nat) : (a.setIndex l n).values = a.values := rfl

@[simp] theorem indices_setIndex (n : Nat) :
    (a.setIndex l n).indices = a.indices.modify l.number fun _ => n := by
  unfold indices setIndex
  exact map_modify (by intro; rfl) a.locations l.number

@[simp] theorem values_setLocation (o : Option LocationId) :
    (a.setLocation i o).values = a.values := by
  unfold values setLocation
  exact (map_modify (h := id) (by intro; rfl) a.items i.number).trans (List.modify_id _ _)

@[simp] theorem indices_setLocation (o : Option LocationId) :
    (a.setLocation i o).indices = a.indices := rfl

@[simp] theorem values_setItems (o : Option (List ItemId)) :
    (a.setItems l o).values = a.values := rfl

@[simp] theorem indices_setItems (o : Option (List ItemId)) :
    (a.setItems l o).indices = a.indices := by
  unfold indices setItems
  exact (map_modify (h := id) (by intro; rfl) a.locations l.number).trans (List.modify_id _ _)

/-! ## What the operations do -/

/-- `a'` has the handles of `a`, and all values and indices are the same. -/
structure Keeps (a a' : Arena α) : Prop where
  values : a'.values = a.values
  indices : a'.indices = a.indices

/-- `a'` is `a` with `i` put at the end of the items at `l`. -/
structure Puts (a a' : Arena α) (i : ItemId) (l : LocationId) : Prop extends Keeps a a' where
  itemsAt : ∀ l', a'.itemsAt l' = if l' = l then a.itemsAt l ++ [i] else a.itemsAt l'
  locationOf? : ∀ j, a'.locationOf? j = if j = i then some l else a.locationOf? j

/-- `a'` is `a` with `i` taken away from wherever it was. -/
structure Takes (a a' : Arena α) (i : ItemId) : Prop extends Keeps a a' where
  itemsAt : ∀ l, a'.itemsAt l = (a.itemsAt l).erase i
  locationOf? : ∀ j, a'.locationOf? j = if j = i then none else a.locationOf? j

/-- `a'` is `a` with the items at `s` put ahead of the items at `t`. -/
structure Folds (a a' : Arena α) (s t : LocationId) : Prop extends Keeps a a' where
  itemsAt : ∀ l, a'.itemsAt l =
    if l = t then a.itemsAt s ++ a.itemsAt t else if l = s then [] else a.itemsAt l
  locationOf? : ∀ j, a'.locationOf? j = if j ∈ a.itemsAt s then some t else a.locationOf? j

/-- Lists and back-references tell the same story, and no list has an item twice. -/
structure Consistent (a : Arena α) : Prop where
  locationOf?_iff : ∀ i l, a.locationOf? i = some l ↔ i ∈ a.itemsAt l
  nodup : ∀ l, (a.itemsAt l).Nodup

theorem Keeps.refl (a : Arena α) : Keeps a a := ⟨rfl, rfl⟩

theorem Keeps.trans {a'' : Arena α} (h : Keeps a a') (h' : Keeps a' a'') : Keeps a a'' :=
  ⟨h'.values.trans h.values, h'.indices.trans h.indices⟩

theorem Keeps.hasItem (h : Keeps a a') : a'.HasItem i ↔ a.HasItem i := by
  rw [hasItem_iff, hasItem_iff, h.values]

theorem Keeps.hasLocation (h : Keeps a a') : a'.HasLocation l ↔ a.HasLocation l := by
  rw [hasLocation_iff, hasLocation_iff, h.indices]

theorem attach_eq_ok_iff :
    a.attach i l = .ok a' ↔ a.locationOf? i = none ∧
      a' = (a.setLocation i (some l)).setItems l (some (a.itemsAt l ++ [i])) := by
  unfold attach
  cases h : a.locationOf? i with
  | none => simp [eq_comm]
  | some current => simp

theorem exists_attach_eq_ok (h : a.locationOf? i = none) (l : LocationId) :
    ∃ a', a.attach i l = .ok a' :=
  ⟨_, attach_eq_ok_iff.2 ⟨h, rfl⟩⟩

theorem attach_eq_error_iff {e : EditError} :
    a.attach i l = .error e ↔ ∃ current, a.locationOf? i = some current ∧
      e = .alreadyPlaced i current l := by
  unfold attach
  cases h : a.locationOf? i with
  | none => simp
  | some current => simp [eq_comm]

/-- An attached item is put at its location. -/
theorem attach_puts (hi : a.HasItem i) (hl : a.HasLocation l) (h : a.attach i l = .ok a') :
    Puts a a' i l := by
  obtain ⟨-, rfl⟩ := attach_eq_ok_iff.1 h
  refine ⟨⟨by simp, by simp⟩, fun l' => ?_, fun j => ?_⟩
  · rw [itemsAt_setItems (a := a.setLocation i (some l)) hl]; simp
  · rw [locationOf?_setItems, locationOf?_setLocation hi]

namespace Consistent

variable (h : a.Consistent)

include h

theorem hasItem (hi : i ∈ a.itemsAt l) : a.HasItem i :=
  hasItem_of_locationOf? ((h.locationOf?_iff i l).2 hi)

theorem hasLocation (hi : a.locationOf? i = some l) : a.HasLocation l :=
  hasLocation_of_mem ((h.locationOf?_iff i l).1 hi)

/-- An item is in the list of one location at most. -/
theorem eq_of_mem (hl : i ∈ a.itemsAt l) (hl' : i ∈ a.itemsAt l') : l = l' := by
  have e := (h.locationOf?_iff i l).2 hl
  rw [(h.locationOf?_iff i l').2 hl'] at e
  exact (Option.some.inj e).symm

theorem locationOf?_eq_none_iff : a.locationOf? i = none ↔ ∀ l, i ∉ a.itemsAt l := by
  rw [Option.eq_none_iff_forall_ne_some]
  exact forall_congr' fun l => not_congr (h.locationOf?_iff i l)

/-- Only the views matter. -/
theorem congr (hi : ∀ l, a'.itemsAt l = a.itemsAt l)
    (hl : ∀ i, a'.locationOf? i = a.locationOf? i) : a'.Consistent where
  locationOf?_iff i l := by rw [hi, hl]; exact h.locationOf?_iff i l
  nodup l := by rw [hi]; exact h.nodup l

theorem puts (hn : a.locationOf? i = none) (hp : Puts a a' i l) : a'.Consistent where
  locationOf?_iff j l' := by
    have hi := h.locationOf?_eq_none_iff.1 hn
    have hj := h.locationOf?_iff j l'
    rw [hp.itemsAt, hp.locationOf?]
    by_cases hji : j = i <;> by_cases hl : l' = l
    · simp [hji, hl]
    · simpa [hji, hl, Ne.symm hl] using hi l'
    · subst hl; simpa [hji] using hj
    · simpa [hji, hl] using hj
  nodup l' := by
    rw [hp.itemsAt]
    split
    · rw [← List.concat_eq_append]
      exact (h.nodup l).concat (h.locationOf?_eq_none_iff.1 hn l)
    · exact h.nodup l'

theorem takes (ht : Takes a a' i) : a'.Consistent where
  locationOf?_iff j l := by
    rw [ht.itemsAt, ht.locationOf?, (h.nodup l).mem_erase_iff, ← h.locationOf?_iff j l]
    by_cases hji : j = i <;> simp [hji]
  nodup l := by rw [ht.itemsAt]; exact (h.nodup l).erase i

/-- Only the list that has an item changes when it is taken away. -/
theorem itemsAt_of_takes (ht : Takes a a' i) (hi : i ∈ a.itemsAt l) (hl : l' ≠ l) :
    a'.itemsAt l' = a.itemsAt l' := by
  rw [ht.itemsAt]
  exact List.erase_of_not_mem fun hm => hl (h.eq_of_mem hm hi)

theorem folds (hs : s ≠ t) (hf : Folds a a' s t) : a'.Consistent where
  locationOf?_iff j l := by
    have hj := h.locationOf?_iff j l
    rw [hf.itemsAt, hf.locationOf?]
    by_cases hjs : j ∈ a.itemsAt s
    · have hne : ∀ l, l ≠ s → j ∉ a.itemsAt l := fun l hl hm => hl (h.eq_of_mem hm hjs)
      by_cases hlt : l = t
      · simp [hjs, hlt]
      · by_cases hls : l = s
        · simp [hjs, hls, hs, Ne.symm hs]
        · simpa [hjs, hlt, hls, Ne.symm hlt] using hne l hls
    · by_cases hlt : l = t
      · subst hlt; simpa [hjs] using hj
      · by_cases hls : l = s
        · subst hls; simpa [hjs, hlt] using fun e => hjs (hj.1 e)
        · simpa [hjs, hlt, hls] using hj
  nodup l := by
    rw [hf.itemsAt]
    split
    · refine List.nodup_append.2 ⟨h.nodup s, h.nodup t, ?_⟩
      rintro x hx y hy rfl
      exact hs (h.eq_of_mem hx hy)
    · split
      · exact List.nodup_nil
      · exact h.nodup l

end Consistent

theorem detach_takes (h : a.Consistent) : Takes a (a.detach i).2 i := by
  unfold detach
  cases hi : a.locationOf? i with
  | none =>
    refine ⟨Keeps.refl a, fun l => ?_, fun j => ?_⟩
    · exact (List.erase_of_not_mem (h.locationOf?_eq_none_iff.1 hi l)).symm
    · by_cases hj : j = i
      · rw [if_pos hj, hj]; exact hi
      · rw [if_neg hj]
  | some m =>
    have hm : a.HasLocation m := h.hasLocation hi
    refine ⟨⟨by simp, by simp⟩, fun l => ?_, fun j => ?_⟩
    · rw [itemsAt_setItems (a := a.setLocation i none) hm, itemsAt_setLocation]
      split
      · rename_i e; subst e
        unfold itemsAt
        cases (a.locations[l.number]?).bind (·.items) <;> simp
      · rename_i e
        refine (List.erase_of_not_mem fun hl => e ?_).symm
        exact h.eq_of_mem hl ((h.locationOf?_iff i m).1 hi)
    · rw [locationOf?_setItems, locationOf?_setLocation (hasItem_of_locationOf? hi)]

/-- The loop of a merge points every moved item to the target and touches nothing else. -/
theorem foldl_setLocation (moved : List ItemId) (hm : ∀ i ∈ moved, a.HasItem i) :
    Keeps a (moved.foldl (fun a i => a.setLocation i (some t)) a) ∧
      (∀ l, (moved.foldl (fun a i => a.setLocation i (some t)) a).itemsAt l = a.itemsAt l) ∧
      ∀ j, (moved.foldl (fun a i => a.setLocation i (some t)) a).locationOf? j =
        if j ∈ moved then some t else a.locationOf? j := by
  induction moved generalizing a with
  | nil => exact ⟨Keeps.refl a, fun _ => rfl, fun _ => rfl⟩
  | cons i rest ih =>
    have hi : a.HasItem i := hm i List.mem_cons_self
    have hk : Keeps a (a.setLocation i (some t)) := ⟨by simp, by simp⟩
    obtain ⟨hkeep, hitems, hloc⟩ := ih (a := a.setLocation i (some t)) fun x hx =>
      hk.hasItem.2 (hm x (List.mem_cons_of_mem i hx))
    refine ⟨hk.trans hkeep, hitems, fun j => ?_⟩
    rw [List.foldl_cons, hloc, locationOf?_setLocation hi]
    by_cases hr : j ∈ rest <;> by_cases hj : j = i <;> simp [hr, hj]

theorem merge_self (a : Arena α) (s : LocationId) : a.merge s s = a := if_pos rfl

theorem merge_folds (h : a.Consistent) (ht : a.HasLocation t) (hs : s ≠ t) :
    Folds a (a.merge s t) s t := by
  unfold merge
  rw [if_neg hs]
  cases hi : (a.locations[s.number]?).bind (·.items) with
  | none =>
    have hnil : a.itemsAt s = [] := by simp [itemsAt, hi]
    refine ⟨Keeps.refl a, fun l => ?_, fun j => by simp [hnil]⟩
    rw [hnil]
    by_cases hlt : l = t
    · simp [hlt]
    · by_cases hls : l = s <;> simp [hlt, hls, hnil, hs]
  | some moved =>
    have hmoved : a.itemsAt s = moved := by simp [itemsAt, hi]
    obtain ⟨hkeep, hitems, hloc⟩ := foldl_setLocation (a := a) (t := t) moved fun i hm =>
      h.hasItem (l := s) (hmoved ▸ hm)
    have hlen : a.HasLocation s := by
      by_contra hn
      simp [List.getElem?_eq_none (Nat.le_of_not_lt hn)] at hi
    dsimp only
    generalize moved.foldl (fun a i => a.setLocation i (some t)) a = b at hkeep hitems hloc
    have hbs : Keeps a (b.setItems s none) := ⟨by simp [hkeep.values], by simp [hkeep.indices]⟩
    refine ⟨⟨by simp [hkeep.values], by simp [hkeep.indices]⟩, fun l => ?_, fun j => ?_⟩
    · rw [itemsAt_setItems (hbs.hasLocation.2 ht), itemsAt_setItems (hkeep.hasLocation.2 hlen),
        hitems, hmoved]
      simp
    · rw [locationOf?_setItems, locationOf?_setItems, hloc, hmoved]

end DalvikLinkage.Body.Arena

namespace DalvikLinkage.Body.Cursor

open Arena

variable {α : Type} {a a' : Arena α} {c c' : Cursor} {i : ItemId}

/-- Going on either finds nothing and leaves the cursor as it is, or comes past the next item. -/
theorem advance_cases (c : Cursor) (a : Arena α) :
    ((a.itemsAt c.location)[c.next]? = none ∧ c.advance a = (none, c)) ∨
    ∃ i, (a.itemsAt c.location)[c.next]? = some i ∧
      c.advance a = (some i, { c with next := c.next + 1, last := some c.next }) := by
  unfold advance
  cases (a.itemsAt c.location)[c.next]? with
  | none => exact Or.inl ⟨rfl, rfl⟩
  | some i => exact Or.inr ⟨i, rfl, rfl⟩

/-- Removing is refused, which leaves only the cursor without a current item, or takes out what
stands at the place of the current item. -/
theorem remove_cases (c : Cursor) (a : Arena α) :
    (c.last.bind ((a.itemsAt c.location)[·]?) = none ∧
      c.remove a = (.error .noCurrentItem, { c with last := none }, a)) ∨
    ∃ p i, c.last = some p ∧ (a.itemsAt c.location)[p]? = some i ∧
      c.remove a = (.ok i, { c with next := p, last := none },
        (a.setItems c.location (some ((a.itemsAt c.location).eraseIdx p))).setLocation i none) := by
  obtain ⟨location, next, last⟩ := c
  unfold remove
  cases last with
  | none => exact Or.inl ⟨rfl, rfl⟩
  | some p =>
    dsimp only
    cases hp : (a.itemsAt location)[p]? with
    | none => exact Or.inl ⟨hp, rfl⟩
    | some i => exact Or.inr ⟨p, i, rfl, hp, rfl⟩

theorem add_cases (c : Cursor) (a : Arena α) (i : ItemId) :
    (∃ e, a.attach i c.location = .error e ∧ c.add a i = .error e) ∨
    ∃ a', a.attach i c.location = .ok a' ∧ c.add a i = .ok ({ c with last := none }, a') := by
  unfold add
  cases a.attach i c.location with
  | error e => exact Or.inl ⟨e, rfl, rfl⟩
  | ok a' => exact Or.inr ⟨a', rfl, rfl⟩

/-- A removal that is granted takes the current item away. -/
theorem remove_takes (h : a.Consistent) {p : Nat} (hp : (a.itemsAt c.location)[p]? = some i) :
    Takes a ((a.setItems c.location (some ((a.itemsAt c.location).eraseIdx p))).setLocation i none)
      i := by
  have hm : i ∈ a.itemsAt c.location := List.mem_of_getElem? hp
  obtain ⟨hlt, hget⟩ := List.getElem?_eq_some_iff.1 hp
  have hk : Keeps a (a.setItems c.location (some ((a.itemsAt c.location).eraseIdx p))) :=
    ⟨by simp, by simp⟩
  refine ⟨⟨by simp, by simp⟩, fun l => ?_, fun j => ?_⟩
  · rw [itemsAt_setLocation, itemsAt_setItems (hasLocation_of_mem hm)]
    split
    · rename_i e
      rw [e, ← hget, (h.nodup c.location).erase_getElem]
      rfl
    · rename_i e
      exact (List.erase_of_not_mem fun hl => e (h.eq_of_mem hl hm)).symm
  · rw [locationOf?_setLocation (hk.hasItem.2 (h.hasItem hm)), locationOf?_setItems]

end DalvikLinkage.Body.Cursor
