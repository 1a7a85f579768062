import DalvikLinkage.Proofs.Body.Slots

/-!
# The slots of a method body

`Editor.view` shows an edited method body as slots: the items at its positions in order. Every edit
of the body is the edit of the slots (`view_apply`), so that runs agree (`view_run`), and then the
body reads as its slots do: instructions, items at a position, addresses and items in order
(`run_slots`).
-/
namespace DalvikLinkage.Body

open Arena MethodBody

/-! ## Slots of a body -/

namespace MethodBody

/-- The items at each position. -/
def slots (b : MethodBody) : List (List ItemId) :=
  b.positions.map b.arena.itemsAt

/-- A change at one place of a list without repetitions. -/
theorem map_eq_modify {β γ : Type} {f g : β → γ} {h : γ → γ} {xs : List β} {x : β} {k : Nat}
    (hn : xs.Nodup) (hk : xs[k]? = some x) (hx : g x = h (f x)) (hf : ∀ y ∈ xs, y ≠ x → g y = f y) :
    xs.map g = (xs.map f).modify k h := by
  refine List.ext_getElem? fun j => ?_
  rw [List.getElem?_map, List.getElem?_modify, List.getElem?_map]
  by_cases hj : k = j
  · subst hj; simp [hk, hx]
  · cases hy : xs[j]? with
    | none => rfl
    | some y =>
      have hne : y ≠ x := by
        rintro rfl
        exact hj ((List.getElem?_inj (List.getElem?_eq_some_iff.1 hk).1 hn).1 (hk.trans hy.symm))
      simp [hj, hf y (List.mem_of_getElem? hy) hne]

variable {b b' : MethodBody} {a : Arena Item} {k : Nat} {i : ItemId} {l : LocationId}

theorem slots_puts (h : b.WellPlaced) (hl : b.positions[k]? = some l) (hp : Puts b.arena a i l) :
    slots { b with arena := a } = b.slots.modify k (· ++ [i]) :=
  map_eq_modify h.nodup hl (by rw [hp.itemsAt, if_pos rfl]) fun y _ hy => by
    rw [hp.itemsAt, if_neg hy]

theorem slots_takes (ht : Takes b.arena a i) :
    slots { b with arena := a } = b.slots.map (·.erase i) := by
  unfold slots
  rw [List.map_map]
  exact List.map_congr_left fun l _ => ht.itemsAt l

/-- Only the slot that has an item changes when it is taken away. -/
theorem slots_takes_of_mem (h : b.WellPlaced) (hl : b.positions[k]? = some l)
    (hi : i ∈ b.arena.itemsAt l) (ht : Takes b.arena a i) :
    slots { b with arena := a } = b.slots.modify k (·.erase i) :=
  map_eq_modify h.nodup hl (ht.itemsAt l) fun _ _ hy => h.consistent.itemsAt_of_takes ht hi hy

theorem itemsAt_newLocation_self (a : Arena Item) (n : Nat) :
    a.itemsAt (a.newLocation n).1 = [] :=
  List.eq_nil_iff_forall_not_mem.2 fun _ hm =>
    not_hasLocation_newLocation (hasLocation_of_mem hm)

theorem slots_push (b : MethodBody) (x : Instruction) : (b.push x).slots = b.slots ++ [[]] := by
  have hf : (b.arena.newLocation (b.length + 1)).2.itemsAt = b.arena.itemsAt :=
    funext fun l => itemsAt_newLocation _
  simp only [slots, push_eq, hf, List.map_append, List.map_cons, List.map_nil,
    itemsAt_newLocation_self]

theorem slots_insert {pre suf : List LocationId} (hp : b.positions = pre ++ suf)
    (hk : pre.length = k) (n m : Nat) (xs : List Instruction) :
    slots { b with
      instructions := xs
      positions := pre ++ (b.arena.newLocation n).1 :: suf
      arena := reindex (b.arena.newLocation n).2 m suf } = b.slots.insertIdx k [] := by
  have hf : (reindex (b.arena.newLocation n).2 m suf).itemsAt = b.arena.itemsAt :=
    funext fun l => by rw [itemsAt_reindex, itemsAt_newLocation]
  have hlen : (pre.map b.arena.itemsAt).length = k := by rw [List.length_map, hk]
  simp only [slots, hf, hp, List.map_append, List.map_cons, itemsAt_newLocation_self]
  rw [← hlen, insertIdx_append_length]

theorem slots_remove (h : b.WellPlaced) {pre suf : List LocationId} {s t : LocationId}
    (hp : b.positions = pre ++ s :: t :: suf) (hk : pre.length = k) (n : Nat)
    (xs : List Instruction) :
    slots { b with
      instructions := xs
      positions := pre ++ t :: suf
      arena := reindex (b.arena.merge s t) n (t :: suf) } = foldSlot k b.slots := by
  have hn := h.nodup
  rw [hp] at hn
  obtain ⟨-, hback, hdisj⟩ := List.nodup_append.1 hn
  simp only [List.nodup_cons, List.mem_cons, not_or] at hback
  obtain ⟨-, hf⟩ := h.merge_folds hp
  have hitems : ∀ l, l ≠ s → l ≠ t →
      (reindex (b.arena.merge s t) n (t :: suf)).itemsAt l = b.arena.itemsAt l := fun l hs ht => by
    rw [itemsAt_reindex, hf.itemsAt, if_neg ht, if_neg hs]
  have hpre : pre.map (reindex (b.arena.merge s t) n (t :: suf)).itemsAt =
      pre.map b.arena.itemsAt := List.map_congr_left fun l hl =>
    hitems l (hdisj l hl s (by simp)) (hdisj l hl t (by simp))
  have hsuf : suf.map (reindex (b.arena.merge s t) n (t :: suf)).itemsAt =
      suf.map b.arena.itemsAt := List.map_congr_left fun l hl =>
    hitems l (fun e => hback.1.2 (e ▸ hl)) fun e => hback.2.1 (e ▸ hl)
  have hmid : (reindex (b.arena.merge s t) n (t :: suf)).itemsAt t =
      b.arena.itemsAt s ++ b.arena.itemsAt t := by rw [itemsAt_reindex, hf.itemsAt, if_pos rfl]
  have hlen : (pre.map b.arena.itemsAt).length = k := by rw [List.length_map, hk]
  simp only [slots, hp, List.map_append, List.map_cons, hpre, hsuf, hmid]
  rw [← hlen, foldSlot_append]

/-- Asking for a position answers if there is a slot, with the location of its items. -/
theorem slot_cases (h : b.WellPlaced) (k : Nat) :
    (b.slots[k]? = none ∧ b.location k = .error (.indexOutOfRange k b.length)) ∨
    ∃ l, b.positions[k]? = some l ∧ b.slots[k]? = some (b.arena.itemsAt l) ∧
      b.location k = .ok l := by
  rw [slots, List.getElem?_map]
  rcases h.location_cases k with ⟨hk, he⟩ | ⟨l, -, hl, he⟩
  · have hn : b.positions[k]? = none :=
      List.getElem?_eq_none (by rw [h.length_positions]; omega)
    exact Or.inl ⟨by rw [hn]; rfl, he⟩
  · exact Or.inr ⟨l, hl, by rw [hl]; rfl, he⟩

theorem mem_flatten_slots (h : b.WellPlaced) :
    i ∈ b.slots.flatten ↔ b.arena.locationOf? i ≠ none := by
  rw [List.mem_flatten, Option.ne_none_iff_exists']
  constructor
  · rintro ⟨items, hs, hi⟩
    obtain ⟨l, -, rfl⟩ := List.mem_map.1 hs
    exact ⟨l, (h.consistent.locationOf?_iff i l).2 hi⟩
  · rintro ⟨l, hl⟩
    exact ⟨b.arena.itemsAt l, List.mem_map.2 ⟨l, h.placed i l hl, rfl⟩,
      (h.consistent.locationOf?_iff i l).1 hl⟩

end MethodBody

/-! ## Edits of a body are edits of its slots -/

namespace Editor

/-- A cursor as a walk through the slot of its position. -/
def walk (b : MethodBody) (c : Cursor) : SlotWalk where
  slot := b.positions.idxOf c.location
  ahead := (b.arena.itemsAt c.location).drop c.next
  current := c.last.bind ((b.arena.itemsAt c.location)[·]?)

/-- The body as slots. -/
def view (e : Editor) : SlotBody where
  instructions := e.body.instructions
  slots := e.body.slots
  values := e.body.arena.values
  walk := e.cursor.map (walk e.body)

/-- The outcome of an edit is that of the same edit of the slots; of a refusal only that it is one
is compared. -/
def Agrees (r : Except EditError Answer × Editor) (q : Option Answer × SlotBody) : Prop :=
  r.1.toOption = q.1 ∧ r.2.view = q.2

variable {e : Editor} {k : Nat} {i : ItemId}

theorem agrees_refused (e : Editor) (err : EditError) :
    Agrees (.error err, ⟨e.body, none⟩) e.view.refused :=
  ⟨rfl, rfl⟩

theorem agrees_push (e : Editor) (x : Instruction) :
    Agrees (.ok .done, ⟨e.body.push x, none⟩) (some .done, e.view.append x) := by
  have hslots := slots_push e.body x
  rw [push_eq] at hslots ⊢
  refine ⟨rfl, ?_⟩
  simp only [view, SlotBody.append, hslots, values_newLocation, Option.map_none]

theorem agrees_insert (h : e.Inv) (k : Nat) (x : Instruction) :
    Agrees (e.apply (.insert k x)) (e.view.apply (.insert k x)) := by
  simp only [apply, SlotBody.apply]
  rcases insert_cases h.wellPlaced k x with ⟨hk, he⟩ | ⟨hk, he⟩ | ⟨pre, suf, hk, hp, hpre, he⟩ <;>
    rw [he]
  · have h1 : ¬ k < e.view.instructions.length := Nat.lt_asymm hk
    have h2 : k ≠ e.view.instructions.length := Nat.ne_of_gt hk
    rw [if_neg h1, if_neg h2]
    exact agrees_refused e _
  · have h1 : ¬ k < e.view.instructions.length := Nat.not_lt_of_ge (Nat.le_of_eq hk.symm)
    have h2 : k = e.view.instructions.length := hk
    rw [if_neg h1, if_pos h2]
    exact agrees_push e x
  · have h1 : k < e.view.instructions.length := hk
    rw [if_pos h1]
    refine ⟨rfl, ?_⟩
    simp only [edited, view, slots_insert hp hpre, values_reindex, values_newLocation,
      Option.map_none]

theorem agrees_replace (e : Editor) (k : Nat) (x : Instruction) :
    Agrees (e.apply (.replace k x)) (e.view.apply (.replace k x)) := by
  simp only [apply, SlotBody.apply]
  rcases replace_cases e.body k x with ⟨hk, he⟩ | ⟨old, hk, hold, he⟩ <;> rw [he]
  · have hn : e.view.instructions[k]? = none := List.getElem?_eq_none hk
    rw [hn]
    exact agrees_refused e _
  · have hs : e.view.instructions[k]? = some old := hold
    rw [hs]
    exact ⟨rfl, rfl⟩

theorem agrees_remove (h : e.Inv) (k : Nat) :
    Agrees (e.apply (.remove k)) (e.view.apply (.remove k)) := by
  simp only [apply, SlotBody.apply]
  have hw := h.wellPlaced
  rcases remove_cases hw k with ⟨hk, he⟩ | ⟨old, pre, s, t, suf, hk, hold, hp, hpre, he⟩ <;> rw [he]
  · have hn : e.view.instructions[k]? = none := List.getElem?_eq_none hk
    rw [hn]
    exact agrees_refused e _
  · have hs : e.view.instructions[k]? = some old := hold
    obtain ⟨-, hf⟩ := hw.merge_folds hp
    rw [hs]
    refine ⟨rfl, ?_⟩
    simp only [edited, view, slots_remove hw hp hpre, values_reindex, hf.values, Option.map_none]

theorem agrees_addItem (h : e.Inv) (k : Nat) (v : Item) :
    Agrees (e.edited (fun r => (.item r.1, r.2)) (e.body.addItem k v)) (e.view.addItem k v) := by
  unfold SlotBody.addItem
  rcases addItem_cases h.wellPlaced k v with ⟨hk, he⟩ | ⟨l, a, hk, hl, hp, he⟩ <;> rw [he]
  · have h1 : e.view.instructions.length < k := hk
    rw [if_pos h1]
    exact agrees_refused e _
  · have h1 : ¬ e.view.instructions.length < k := Nat.not_lt_of_ge hk
    have hfresh : (e.body.arena.newItem v).1 = ⟨e.view.values.length⟩ := by
      simp [newItem, view, values]
    have hnew : WellPlaced { e.body with arena := (e.body.arena.newItem v).2 } :=
      wellPlaced_newItem h.wellPlaced v
    have hslots := slots_puts hnew hl hp
    rw [if_neg h1]
    rw [hfresh] at hslots ⊢
    refine ⟨rfl, ?_⟩
    simp only [edited, view, hp.values, values_newItem, Option.map_none] at hslots ⊢
    rw [hslots]
    rfl

theorem agrees_moveItem (h : e.Inv) (hi : e.body.arena.HasItem i) (k : Nat) :
    Agrees (e.apply (.moveItem i k)) (e.view.apply (.moveItem i k)) := by
  simp only [apply, SlotBody.apply]
  have hw := h.wellPlaced
  rcases moveItem_cases hw hi k with ⟨hk, he⟩ | ⟨l, a, hk, hl, ht, hp, he⟩ <;> rw [he]
  · have h1 : e.view.instructions.length < k := hk
    rw [if_pos h1]
    exact agrees_refused e _
  · have h1 : ¬ e.view.instructions.length < k := Nat.not_lt_of_ge hk
    have hslots := slots_puts (hw.takes ht) hl hp
    rw [slots_takes ht] at hslots
    rw [if_neg h1]
    refine ⟨rfl, ?_⟩
    simp only [edited, view, hslots, hp.values, ht.values, Option.map_none]

/-! ## Cursors of a body are walks through its slots -/

variable {b : MethodBody} {c : Cursor}

theorem idxOf_eq (h : b.WellPlaced) {l : LocationId} (hl : b.positions[k]? = some l) :
    b.positions.idxOf l = k := by
  obtain ⟨hk, rfl⟩ := List.getElem?_eq_some_iff.1 hl
  exact h.nodup.idxOf_getElem k hk

theorem walk_eq_none (hc : e.cursor = none) : e.view.walk = none := by
  rw [view, hc]; rfl

theorem walk_eq_some (hc : e.cursor = some c) : e.view.walk = some (walk e.body c) := by
  rw [view, hc]; rfl

theorem agrees_openCursor (h : e.Inv) (k : Nat) :
    Agrees (e.apply (.openCursor k)) (e.view.apply (.openCursor k)) := by
  simp only [apply, SlotBody.apply, MethodBody.cursor]
  rcases slot_cases h.wellPlaced k with ⟨hs, he⟩ | ⟨l, hl, hs, he⟩ <;> rw [he]
  · have hv : e.view.slots[k]? = none := hs
    rw [hv]
    exact agrees_refused e _
  · have hv : e.view.slots[k]? = some (e.body.arena.itemsAt l) := hs
    rw [hv]
    refine ⟨rfl, ?_⟩
    simp only [view, walk, idxOf_eq h.wellPlaced hl, Option.map_some, List.drop_zero,
      Option.bind_none]

theorem agrees_advance (e : Editor) : Agrees (e.apply .advance) (e.view.apply .advance) := by
  simp only [apply, SlotBody.apply]
  cases hc : e.cursor with
  | none => rw [walk_eq_none hc]; exact ⟨rfl, rfl⟩
  | some c =>
    rw [walk_eq_some hc]
    rcases c.advance_cases e.body.arena with ⟨hn, he⟩ | ⟨i, hi, he⟩ <;> simp only [he]
    · have ha : (walk e.body c).ahead = [] :=
        List.drop_eq_nil_of_le (List.getElem?_eq_none_iff.1 hn)
      rw [ha]
      exact ⟨rfl, by simp [view, hc]⟩
    · obtain ⟨hlt, hget⟩ := List.getElem?_eq_some_iff.1 hi
      have ha : (walk e.body c).ahead =
          i :: (e.body.arena.itemsAt c.location).drop (c.next + 1) := by
        rw [← hget]; exact List.drop_eq_getElem_cons hlt
      rw [ha]
      refine ⟨rfl, ?_⟩
      simp [view, walk, hi]

theorem agrees_removeCurrent (h : e.Inv) :
    Agrees (e.apply .removeCurrent) (e.view.apply .removeCurrent) := by
  simp only [apply, SlotBody.apply]
  cases hc : e.cursor with
  | none => rw [walk_eq_none hc]; exact ⟨rfl, rfl⟩
  | some c =>
    have hat := h.cursor c hc
    rw [walk_eq_some hc]
    rcases c.remove_cases e.body.arena with ⟨hn, he⟩ | ⟨p, i, hp, hi, he⟩ <;> simp only [he]
    · have hcur : (walk e.body c).current = none := hn
      rw [hcur]
      refine ⟨rfl, ?_⟩
      simp [view, hc, walk, hn]
    · have hcur : (walk e.body c).current = some i := by simp [walk, hp, hi]
      have hpos := List.getElem?_idxOf hat.location
      have ht := Cursor.remove_takes h.wellPlaced.consistent hi
      have hslots := slots_takes_of_mem h.wellPlaced hpos (List.mem_of_getElem? hi) ht
      have hlt : p < (e.body.arena.itemsAt c.location).length := (List.getElem?_eq_some_iff.1 hi).1
      have hahead : ((e.body.arena.itemsAt c.location).eraseIdx p).drop p =
          (e.body.arena.itemsAt c.location).drop c.next := by
        rw [← hat.last_eq p hp, List.eraseIdx_eq_take_drop_succ,
          List.drop_left' (List.length_take_of_le (Nat.le_of_lt hlt))]
      have hitems := itemsAt_setItems_self (h.wellPlaced.hasLocation hat.location)
        ((e.body.arena.itemsAt c.location).eraseIdx p)
      rw [hcur]
      refine ⟨rfl, ?_⟩
      simp only [view, hslots, ht.values, walk, Option.map_some, itemsAt_setLocation, hitems,
        hahead, Option.bind_none]

theorem agrees_addHere (h : e.Inv) (hi : e.body.arena.HasItem i) :
    Agrees (e.apply (.addHere i)) (e.view.apply (.addHere i)) := by
  simp only [apply, SlotBody.apply]
  cases hc : e.cursor with
  | none => rw [walk_eq_none hc]; exact ⟨rfl, rfl⟩
  | some c =>
    have hat := h.cursor c hc
    have hmem : i ∈ e.view.slots.flatten ↔ e.body.arena.locationOf? i ≠ none :=
      mem_flatten_slots h.wellPlaced
    rw [walk_eq_some hc]
    rcases c.add_cases e.body.arena i with ⟨err, ha, he⟩ | ⟨a, ha, he⟩ <;> simp only [he]
    · obtain ⟨l, hl, -⟩ := attach_eq_error_iff.1 ha
      rw [if_pos (hmem.2 (by rw [hl]; exact Option.some_ne_none l))]
      exact ⟨rfl, rfl⟩
    · have hp := attach_puts hi (h.wellPlaced.hasLocation hat.location) ha
      have hslots := slots_puts h.wellPlaced (List.getElem?_idxOf hat.location) hp
      have hitems := hp.itemsAt c.location
      rw [if_pos rfl] at hitems
      rw [if_neg fun hm => hmem.1 hm (attach_eq_ok_iff.1 ha).1]
      refine ⟨rfl, ?_⟩
      simp only [view, hslots, hp.values, walk, Option.map_some, hitems, Option.bind_none,
        List.drop_append_of_le_length hat.next_le]

/-- Every edit of a body is the same edit of its slots. -/
theorem view_apply (e : Editor) (x : Edit) (h : e.Inv) (hx : e.Admits x) :
    Agrees (e.apply x) (e.view.apply x) := by
  cases x with
  | push x => exact agrees_push e x
  | insert k x => exact agrees_insert h k x
  | replace k x => exact agrees_replace e k x
  | remove k => exact agrees_remove h k
  | addLabel k name => exact agrees_addItem h k (.label name)
  | addDebugItem k item => exact agrees_addItem h k (.debug item)
  | moveItem i k => exact agrees_moveItem h hx k
  | addTryBlock block => exact ⟨rfl, rfl⟩
  | openCursor k => exact agrees_openCursor h k
  | advance => exact agrees_advance e
  | removeCurrent => exact agrees_removeCurrent h
  | addHere i => exact agrees_addHere h hx.2

/-! ## Reading a body off its slots -/

theorem length_addressesFrom (start : Nat) (xs : List Instruction) :
    (addressesFrom start xs).length = xs.length + 1 := by
  induction xs generalizing start with
  | nil => rfl
  | cons x xs ih => rw [addressesFrom, List.length_cons, ih, List.length_cons]

theorem getElem?_addressesFrom (start : Nat) (xs : List Instruction) (hk : k ≤ xs.length) :
    (addressesFrom start xs)[k]? = some (start + ((xs.take k).map Instruction.size).sum) := by
  induction xs generalizing start k with
  | nil =>
    obtain rfl : k = 0 := Nat.le_zero.1 hk
    rfl
  | cons x xs ih =>
    cases k with
    | zero => rfl
    | succ k =>
      rw [addressesFrom, List.getElem?_cons_succ, ih _ (Nat.le_of_succ_le_succ hk)]
      simp only [List.take_succ_cons, List.map_cons, List.sum_cons, Option.some.injEq]
      omega

theorem getElem?_addresses (e : Editor) (hk : k ≤ e.body.length) :
    e.body.addresses[k]? = some (e.view.address k) := by
  rw [addresses, getElem?_addressesFrom 0 e.body.instructions hk, Nat.zero_add]
  rfl

/-- The index that the arena caches for an item is that of the slot that has it. -/
theorem indexOf?_eq_findIdx? (h : b.WellPlaced) (i : ItemId) :
    b.indexOf? i = b.slots.findIdx? (i ∈ ·) := by
  cases hi : b.arena.locationOf? i with
  | none =>
    have hn : b.indexOf? i = none := h.indexOf?_eq_none_iff.2 hi
    rw [hn, eq_comm, List.findIdx?_eq_none_iff]
    intro items hs
    obtain ⟨l, -, rfl⟩ := List.mem_map.1 hs
    simpa using h.consistent.locationOf?_eq_none_iff.1 hi l
  | some l =>
    obtain ⟨k, hk⟩ := List.getElem?_of_mem (h.placed i l hi)
    have hm : i ∈ b.arena.itemsAt l := (h.consistent.locationOf?_iff i l).1 hi
    rw [h.indexOf?_eq hi hk, eq_comm, List.findIdx?_eq_some_iff_getElem]
    obtain ⟨hlt, hget⟩ := List.getElem?_eq_some_iff.1 hk
    refine ⟨by simpa [slots] using hlt, by simpa [slots, hget] using hm, fun j hj hmj => ?_⟩
    have hmj' : i ∈ b.arena.itemsAt b.positions[j] := by simpa [slots] using hmj
    have hjl : b.positions[j] = b.positions[k] := by
      rw [hget]; exact h.consistent.eq_of_mem hmj' hm
    exact absurd ((h.nodup.getElem_inj_iff).1 hjl) (Nat.ne_of_lt hj)

theorem addressOf?_eq (h : e.body.WellPlaced) (i : ItemId) :
    e.body.addressOf? i = e.view.addressOf? i := by
  have hidx : e.body.indexOf? i = e.view.slots.findIdx? (i ∈ ·) := indexOf?_eq_findIdx? h i
  unfold addressOf? SlotBody.addressOf?
  rw [hidx]
  cases hk : e.view.slots.findIdx? (i ∈ ·) with
  | none => rfl
  | some k =>
    have hlt : k < e.body.slots.length := (List.findIdx?_eq_some_iff_getElem.1 hk).1
    rw [slots, List.length_map, h.length_positions] at hlt
    exact getElem?_addresses e (Nat.le_of_lt_succ hlt)

theorem zip_eq_map_zipIdx {β γ : Type} {xs : List β} {ys : List γ} (f : Nat → γ)
    (hlen : ys.length = xs.length) (hf : ∀ k, k < xs.length → ys[k]? = some (f k)) :
    xs.zip ys = xs.zipIdx.map fun p => (p.1, f p.2) := by
  refine List.ext_getElem (by simp [hlen]) fun k h1 h2 => ?_
  have hk : k < xs.length := by simpa using h2
  have hy := hf k hk
  rw [List.getElem?_eq_getElem (by omega)] at hy
  simp [Option.some.inj hy]

theorem itemsInOrder_eq (h : e.body.WellPlaced) : e.body.itemsInOrder = e.view.itemsInOrder := by
  have hzip : e.body.positions.zip e.body.addresses =
      e.body.positions.zipIdx.map fun p => (p.1, e.view.address p.2) := by
    refine zip_eq_map_zipIdx e.view.address ?_ fun k hk => ?_
    · rw [addresses, length_addressesFrom, h.length_positions]; rfl
    · rw [h.length_positions] at hk
      exact getElem?_addresses e (Nat.le_of_lt_succ hk)
  have hslots : e.view.slots.zipIdx =
      e.body.positions.zipIdx.map fun p => (e.body.arena.itemsAt p.1, p.2) := List.zipIdx_map ..
  unfold itemsInOrder SlotBody.itemsInOrder
  rw [hzip, hslots, List.flatMap_map, List.flatMap_map]
  simp only [value?_eq]
  rfl

theorem view_foldl_push (xs : List Instruction) (b : MethodBody) :
    view ⟨xs.foldl push b, none⟩ = ⟨b.instructions ++ xs,
      b.slots ++ List.replicate xs.length [], b.arena.values, none⟩ := by
  induction xs generalizing b with
  | nil => simp [view]
  | cons x xs ih =>
    rw [List.foldl_cons, ih, slots_push, push_eq]
    simp [List.replicate_succ]

theorem view_ofInstructions (registerCount : UInt16) (xs : List Instruction) :
    (ofInstructions registerCount xs).view = SlotBody.ofInstructions xs :=
  view_foldl_push xs (empty registerCount)

/-! ## Runs -/

/-- After the same edits, the body and the slots still go together. -/
theorem view_run (registerCount : UInt16) (xs : List Instruction) (edits : List Edit)
    (h : machine.AdmitsRun (ofInstructions registerCount xs) edits) :
    (machine.run (ofInstructions registerCount xs) edits).Inv ∧
    (machine.run (ofInstructions registerCount xs) edits).view =
      SlotBody.machine.run (SlotBody.ofInstructions xs) edits := by
  refine machine.run_sim SlotBody.machine (R := fun e m => e.Inv ∧ e.view = m) ?_ edits _ _ ?_ h
  · rintro e _ x ⟨hi, rfl⟩ hx
    exact ⟨inv_step e x hi hx, (view_apply e x hi hx).2⟩
  · exact ⟨inv_of_wellPlaced (wellPlaced_ofInstructions registerCount xs),
      view_ofInstructions registerCount xs⟩

/-- An item that is in a slot was added. -/
theorem number_lt_of_mem_slots (h : e.body.WellPlaced) {items : List ItemId}
    (hs : items ∈ e.view.slots) (hi : i ∈ items) : i.number < e.view.values.length := by
  obtain ⟨l, -, rfl⟩ := List.mem_map.1 hs
  have := h.consistent.hasItem hi
  simpa [view, values, HasItem] using this

theorem toOption_location (h : e.body.WellPlaced) (k : Nat) :
    (e.body.location k).toOption.map e.body.arena.itemsAt = e.view.slots[k]? := by
  rcases slot_cases h k with ⟨hs, he⟩ | ⟨l, -, hs, he⟩
  · rw [he]; exact hs.symm
  · rw [he]; exact hs.symm

/-- **A body is its slots.** Build a body from any instructions, none included, and edit it in any
way: it has the instructions and the slots that the same edits give without locations, and every
further edit succeeds, fails and answers as it does there. The items at a location are those of its
slot, an item has the address of its slot, or none if it is in no slot, and the items in order are
the slots in order. The address of a position is the total size of the instructions
before it. -/
theorem run_slots (registerCount : UInt16) (xs : List Instruction) (edits : List Edit)
    (h : machine.AdmitsRun (ofInstructions registerCount xs) edits) :
    let e := machine.run (ofInstructions registerCount xs) edits
    let m := SlotBody.machine.run (SlotBody.ofInstructions xs) edits
    e.body.instructions = m.instructions ∧
    m.slots.length = m.instructions.length + 1 ∧
    (∀ k, (e.body.location k).toOption.map e.body.arena.itemsAt = m.slots[k]?) ∧
    (∀ items ∈ m.slots, ∀ i ∈ items, i.number < m.values.length) ∧
    (∀ i, e.body.addressOf? i = m.addressOf? i) ∧
    e.body.itemsInOrder = m.itemsInOrder ∧
    (∀ k ≤ m.instructions.length, e.body.addresses[k]? = some (m.address k)) ∧
    ∀ x, e.Admits x → (e.apply x).1.toOption = (m.apply x).1 := by
  intro e m
  obtain ⟨hi, hv⟩ : e.Inv ∧ e.view = m := view_run registerCount xs edits h
  have hw := hi.wellPlaced
  rw [← hv]
  refine ⟨rfl, ?_, toOption_location hw, fun _ hs _ hm => number_lt_of_mem_slots hw hs hm,
    addressOf?_eq hw, itemsInOrder_eq hw, fun k hk => getElem?_addresses e hk,
    fun x hx => (view_apply e x hi hx).1⟩
  simp only [view, slots, List.length_map, hw.length_positions]
  rfl

theorem run_slots_tour :
    machine.AdmitsRun (ofInstructions 1 [.nop, .nop, .nop]) tour ∧
    (SlotBody.machine.run (SlotBody.ofInstructions [.nop, .nop, .nop]) tour).slots =
      [[⟨2⟩, ⟨0⟩, ⟨1⟩], [], []] ∧
    (machine.run (ofInstructions 1 [.nop, .nop, .nop]) tour).body.addressOf? ⟨2⟩ = some 0 :=
  have h : machine.AdmitsRun (ofInstructions 1 [.nop, .nop, .nop]) tour := by decide
  ⟨h, by decide, ((run_slots 1 [.nop, .nop, .nop] tour h).2.2.2.2.1 ⟨2⟩).trans (by decide)⟩

end Editor
end DalvikLinkage.Body
