import DalvikLinkage.Body.MethodBody
import DalvikLinkage.Proofs.Body.ArenaViews

/-!
# Positions of a method body

A body has one position for each instruction and one for the end. The arena caches the index of each
position; an edit in the middle gives new indices to the positions behind it only, and a location
that stops being a position stays in the arena with its old index. `WellPlaced` says that this goes
well: the cached indices of the positions are right, and no item is at a location that is not a
position.

Each operation is described once: `insert_cases`, `remove_cases`, `addItem_cases` and
`moveItem_cases` say when it is refused and what it leaves otherwise, and `wellPlaced_push`,
`wellPlaced_insert`, `wellPlaced_replace`, `wellPlaced_remove`, `wellPlaced_addItem` and
`wellPlaced_moveItem` that it keeps `WellPlaced`. What this says of one body is in
`WellPlaced.nodup`, `WellPlaced.itemsAt_eq_nil` and `WellPlaced.indexOf?_eq_none_iff`.
-/
namespace DalvikLinkage.Body.MethodBody

open Arena

/-! ## Cached indices -/

/-- The locations of `ls` have the indices from `n` on. -/
def Indexed {α : Type} (a : Arena α) : Nat → List LocationId → Prop
  | _, [] => True
  | n, l :: ls => a.index? l = some n ∧ Indexed a (n + 1) ls

section Indexed

variable {α : Type} {a a' : Arena α} {n : Nat} {l : LocationId} {xs ys : List LocationId}

theorem indexed_append :
    Indexed a n (xs ++ ys) ↔ Indexed a n xs ∧ Indexed a (n + xs.length) ys := by
  induction xs generalizing n with
  | nil => simp [Indexed]
  | cons x xs ih =>
    simp only [List.cons_append, Indexed, ih, List.length_cons, and_assoc]
    rw [show n + 1 + xs.length = n + (xs.length + 1) by omega]

theorem Indexed.index?_getElem? (h : Indexed a n xs) {k : Nat} (hk : xs[k]? = some l) :
    a.index? l = some (n + k) := by
  induction xs generalizing n k with
  | nil => simp at hk
  | cons x xs ih =>
    cases k with
    | zero => simp at hk; subst hk; exact h.1
    | succ k =>
      rw [ih h.2 (by simpa using hk)]
      congr 1; omega

theorem Indexed.hasLocation (h : Indexed a n xs) (hl : l ∈ xs) : a.HasLocation l := by
  obtain ⟨k, hk⟩ := List.getElem?_of_mem hl
  exact hasLocation_of_index? (h.index?_getElem? hk)

/-- Different places in the list have different indices, so they are different locations. -/
theorem Indexed.nodup (h : Indexed a n xs) : xs.Nodup := by
  rw [List.nodup_iff_getElem?_ne_getElem?]
  intro i j hij hj he
  have hx := List.getElem?_eq_getElem hj
  have hi := h.index?_getElem? (he.trans hx)
  rw [h.index?_getElem? hx] at hi
  have := Option.some.inj hi
  omega

theorem Indexed.congr (h : Indexed a n xs) (hx : ∀ l ∈ xs, a'.index? l = a.index? l) :
    Indexed a' n xs := by
  induction xs generalizing n with
  | nil => trivial
  | cons x xs ih =>
    refine ⟨?_, ih h.2 fun l hl => hx l (List.mem_cons_of_mem x hl)⟩
    rw [hx x List.mem_cons_self]; exact h.1

theorem Indexed.congr_indices (h : Indexed a n xs) (hi : a'.indices = a.indices) :
    Indexed a' n xs :=
  h.congr fun l _ => by rw [index?_eq, index?_eq, hi]

theorem index?_newLocation_of_hasLocation (hl : a.HasLocation l) :
    (a.newLocation n).2.index? l = a.index? l := by
  rw [index?_eq, index?_eq, indices_newLocation, List.getElem?_append_left (hasLocation_iff.1 hl)]

theorem index?_newLocation_self : (a.newLocation n).2.index? (a.newLocation n).1 = some n := by
  rw [index?_eq, indices_newLocation]
  simp [newLocation, indices]

/-- A location of the arena is not the one that is made next. -/
theorem not_hasLocation_newLocation : ¬ a.HasLocation (a.newLocation n).1 := by
  simp [HasLocation, newLocation]

theorem Indexed.newLocation (h : Indexed a n xs) (m : Nat) : Indexed (a.newLocation m).2 n xs :=
  h.congr fun _ hl => index?_newLocation_of_hasLocation (h.hasLocation hl)

end Indexed

section Reindex

variable {a : Arena Item} {n : Nat} {l : LocationId} {i : ItemId} {xs ys : List LocationId}

@[simp] theorem itemsAt_reindex (a : Arena Item) (n : Nat) (ls : List LocationId) :
    (reindex a n ls).itemsAt l = a.itemsAt l := by
  induction ls generalizing a n with
  | nil => rfl
  | cons x ls ih => rw [reindex, ih, itemsAt_setIndex]

@[simp] theorem locationOf?_reindex (a : Arena Item) (n : Nat) (ls : List LocationId) :
    (reindex a n ls).locationOf? i = a.locationOf? i := by
  induction ls generalizing a n with
  | nil => rfl
  | cons x ls ih => rw [reindex, ih, locationOf?_setIndex]

@[simp] theorem values_reindex (a : Arena Item) (n : Nat) (ls : List LocationId) :
    (reindex a n ls).values = a.values := by
  induction ls generalizing a n with
  | nil => rfl
  | cons x ls ih => rw [reindex, ih, values_setIndex]

theorem index?_setIndex_of_ne {α : Type} {a : Arena α} {m : LocationId} (h : l ≠ m) :
    (a.setIndex m n).index? l = a.index? l := by
  have hn : m.number ≠ l.number := fun e => h (by cases l; cases m; simp_all)
  rw [index?_eq, index?_eq, indices_setIndex, List.getElem?_modify_ne _ _ hn]

theorem index?_setIndex_self {α : Type} {a : Arena α} (h : a.HasLocation l) :
    (a.setIndex l n).index? l = some n := by
  rw [index?_eq, indices_setIndex, List.getElem?_modify_eq]
  simp [List.getElem?_eq_getElem (hasLocation_iff.1 h)]

theorem index?_reindex_of_not_mem (h : l ∉ xs) : (reindex a n xs).index? l = a.index? l := by
  induction xs generalizing a n with
  | nil => rfl
  | cons x xs ih =>
    rw [List.mem_cons, not_or] at h
    rw [reindex, ih h.2, index?_setIndex_of_ne h.1]

theorem indexed_reindex (hn : xs.Nodup) (hx : ∀ l ∈ xs, a.HasLocation l) :
    Indexed (reindex a n xs) n xs := by
  induction xs generalizing a n with
  | nil => trivial
  | cons x xs ih =>
    rw [List.nodup_cons] at hn
    have hx' := hx x List.mem_cons_self
    refine ⟨?_, ih hn.2 fun l hl => ?_⟩
    · rw [reindex, index?_reindex_of_not_mem hn.1, index?_setIndex_self hx']
    · simpa [hasLocation_iff] using hx l (List.mem_cons_of_mem x hl)

/-- Giving new indices to the locations behind the first ones is enough if those are right. -/
theorem Indexed.append_reindex (h : Indexed a 0 xs) (hn : (xs ++ ys).Nodup)
    (hy : ∀ l ∈ ys, a.HasLocation l) : Indexed (reindex a xs.length ys) 0 (xs ++ ys) := by
  have hd := List.nodup_append.1 hn
  refine indexed_append.2 ⟨h.congr fun l hl => ?_, ?_⟩
  · exact index?_reindex_of_not_mem fun hl' => hd.2.2 l hl l hl' rfl
  · rw [Nat.zero_add]; exact indexed_reindex hd.2.1 hy

end Reindex

/-! ## Well placed bodies -/

/-- Every position has its own index, there is one for each instruction and one for the end, and
every item that is somewhere is at a position. -/
structure WellPlaced (b : MethodBody) : Prop where
  consistent : b.arena.Consistent
  length_positions : b.positions.length = b.length + 1
  indexed : Indexed b.arena 0 b.positions
  placed : ∀ i l, b.arena.locationOf? i = some l → l ∈ b.positions

variable {b b' : MethodBody} {k : Nat} {i : ItemId} {l : LocationId} {x : Instruction}

namespace WellPlaced

variable (h : b.WellPlaced)

include h

theorem nodup : b.positions.Nodup := h.indexed.nodup

theorem hasLocation (hl : l ∈ b.positions) : b.arena.HasLocation l := h.indexed.hasLocation hl

theorem mem_of_mem_itemsAt (hi : i ∈ b.arena.itemsAt l) : l ∈ b.positions :=
  h.placed i l ((h.consistent.locationOf?_iff i l).2 hi)

/-- A location that is no position any more holds nothing. -/
theorem itemsAt_eq_nil (hl : l ∉ b.positions) : b.arena.itemsAt l = [] :=
  List.eq_nil_iff_forall_not_mem.2 fun _ hi => hl (h.mem_of_mem_itemsAt hi)

theorem index?_eq (hk : b.positions[k]? = some l) : b.arena.index? l = some k := by
  rw [h.indexed.index?_getElem? hk, Nat.zero_add]

/-- The cached index of the location of an item is where the position stands. -/
theorem indexOf?_eq (hi : b.arena.locationOf? i = some l) (hk : b.positions[k]? = some l) :
    b.indexOf? i = some k := by
  simp [indexOf?, hi, h.index?_eq hk, hk]

theorem indexOf?_eq_none_iff : b.indexOf? i = none ↔ b.arena.locationOf? i = none := by
  cases hi : b.arena.locationOf? i with
  | none => simp [indexOf?, hi]
  | some l =>
    obtain ⟨k, hk⟩ := List.getElem?_of_mem (h.placed i l hi)
    simp [h.indexOf?_eq hi hk]

theorem getElem?_positions (hk : k ≤ b.length) : ∃ l, b.positions[k]? = some l :=
  ⟨_, List.getElem?_eq_getElem (by rw [h.length_positions]; omega)⟩

/-- Asking for a position fails behind the end only. -/
theorem location_cases (k : Nat) :
    (b.length < k ∧ b.location k = .error (.indexOutOfRange k b.length)) ∨
    ∃ l, k ≤ b.length ∧ b.positions[k]? = some l ∧ b.location k = .ok l := by
  unfold location
  by_cases hk : k ≤ b.length
  · obtain ⟨l, hl⟩ := h.getElem?_positions hk
    exact Or.inr ⟨l, hk, hl, by rw [hl]⟩
  · have hn : b.positions[k]? = none :=
      List.getElem?_eq_none (by rw [h.length_positions]; omega)
    exact Or.inl ⟨by omega, by rw [hn]⟩

/-- The items of a position go to the next one when the two are merged. -/
theorem merge_folds {pre suf : List LocationId} {s t : LocationId}
    (hp : b.positions = pre ++ s :: t :: suf) :
    s ≠ t ∧ Folds b.arena (b.arena.merge s t) s t := by
  have hn := h.nodup
  rw [hp] at hn
  have hst : s ∉ t :: suf := (List.nodup_cons.1 (List.nodup_append.1 hn).2.1).1
  have hne : s ≠ t := fun e => hst (e ▸ List.mem_cons_self)
  have ht : t ∈ b.positions := by rw [hp]; simp
  exact ⟨hne, Arena.merge_folds h.consistent (h.hasLocation ht) hne⟩

/-- The items may be rearranged, as long as they stay at positions. -/
theorem setArena {a : Arena Item} (hc : a.Consistent) (hi : a.indices = b.arena.indices)
    (hp : ∀ i l, a.locationOf? i = some l → l ∈ b.positions) :
    WellPlaced { b with arena := a } where
  consistent := hc
  length_positions := h.length_positions
  indexed := h.indexed.congr_indices hi
  placed := hp

theorem takes {a : Arena Item} (ht : Takes b.arena a i) : WellPlaced { b with arena := a } := by
  refine h.setArena (h.consistent.takes ht) ht.indices fun j l hj => ?_
  rw [ht.locationOf?] at hj
  split at hj
  · cases hj
  · exact h.placed j l hj

theorem puts {a : Arena Item} (hn : b.arena.locationOf? i = none) (hl : l ∈ b.positions)
    (hp : Puts b.arena a i l) : WellPlaced { b with arena := a } := by
  refine h.setArena (h.consistent.puts hn hp) hp.indices fun j m hj => ?_
  rw [hp.locationOf?] at hj
  split at hj
  · cases hj; exact hl
  · exact h.placed j m hj

end WellPlaced

theorem wellPlaced_empty (registerCount : UInt16) : (empty registerCount).WellPlaced where
  consistent := ⟨fun i l => by
    obtain ⟨_ | n⟩ := l <;> simp [empty, Arena.newLocation, locationOf?, itemsAt], fun l => by
    obtain ⟨_ | n⟩ := l <;> simp [empty, Arena.newLocation, itemsAt]⟩
  length_positions := rfl
  indexed := ⟨rfl, trivial⟩
  placed i l hi := by simp [empty, Arena.newLocation, locationOf?] at hi

/-! ## Operations on instructions -/

theorem exists_append_of_le {β : Type} (xs : List β) (h : k ≤ xs.length) :
    ∃ pre suf, xs = pre ++ suf ∧ pre.length = k :=
  ⟨xs.take k, xs.drop k, (List.take_append_drop k xs).symm, List.length_take_of_le h⟩

theorem exists_append_cons_cons {β : Type} (xs : List β) (h : k + 1 < xs.length) :
    ∃ pre s t suf, xs = pre ++ s :: t :: suf ∧ pre.length = k := by
  obtain ⟨pre, suf, rfl, hk⟩ := exists_append_of_le (k := k) xs (by omega)
  rw [List.length_append] at h
  match suf with
  | s :: t :: suf => exact ⟨pre, s, t, suf, rfl, hk⟩
  | [_] => simp only [List.length_singleton] at h; omega
  | [] => simp only [List.length_nil] at h; omega

theorem insertIdx_append_length {β : Type} (pre suf : List β) (x : β) :
    (pre ++ suf).insertIdx pre.length x = pre ++ x :: suf := by
  induction pre with
  | nil => rfl
  | cons y pre ih => simp [ih]

theorem eraseIdx_append_length {β : Type} (pre suf : List β) (x : β) :
    (pre ++ x :: suf).eraseIdx pre.length = pre ++ suf := by
  rw [List.eraseIdx_append_of_length_le (Nat.le_refl _)]
  simp

theorem push_eq (b : MethodBody) (x : Instruction) :
    b.push x = { b with
      instructions := b.instructions ++ [x]
      positions := b.positions ++ [(b.arena.newLocation (b.length + 1)).1]
      arena := (b.arena.newLocation (b.length + 1)).2 } := by
  simp [push, length]

/-- Inserting is refused behind the end, appends at the end, and else makes a position ahead of the
instruction that stands there. -/
theorem insert_cases (h : b.WellPlaced) (k : Nat) (x : Instruction) :
    (b.length < k ∧ b.insert k x = .error (.indexOutOfRange k b.length)) ∨
    (k = b.length ∧ b.insert k x = .ok (b.push x)) ∨
    ∃ pre suf, k < b.length ∧ b.positions = pre ++ suf ∧ pre.length = k ∧
      b.insert k x = .ok { b with
        instructions := b.instructions.insertIdx k x
        positions := pre ++ (b.arena.newLocation k).1 :: suf
        arena := reindex (b.arena.newLocation k).2 (k + 1) suf } := by
  unfold insert
  rcases Nat.lt_trichotomy k b.length with hlt | heq | hgt
  · obtain ⟨pre, suf, hp, hk⟩ := exists_append_of_le (k := k) b.positions
      (by rw [h.length_positions]; omega)
    refine Or.inr (Or.inr ⟨pre, suf, hlt, hp, hk, ?_⟩)
    have hi : b.positions.insertIdx k (b.arena.newLocation k).1 =
        pre ++ (b.arena.newLocation k).1 :: suf := by
      rw [hp, ← hk, insertIdx_append_length]
    rw [if_neg (by omega), if_neg (by omega)]
    dsimp only
    rw [hi, ← hk, List.drop_length_add_append]
    rfl
  · exact Or.inr (Or.inl ⟨heq, by rw [if_neg (by omega), if_pos heq]⟩)
  · exact Or.inl ⟨hgt, if_pos hgt⟩

/-- Removing is refused from the end on, and else drops a position and folds its items into the
next one. -/
theorem remove_cases (h : b.WellPlaced) (k : Nat) :
    (b.length ≤ k ∧ b.remove k = .error (.indexOutOfRange k b.length)) ∨
    ∃ old pre s t suf, k < b.length ∧ b.instructions[k]? = some old ∧
      b.positions = pre ++ s :: t :: suf ∧ pre.length = k ∧
      b.remove k = .ok (old, { b with
        instructions := b.instructions.eraseIdx k
        positions := pre ++ t :: suf
        arena := reindex (b.arena.merge s t) k (t :: suf) }) := by
  unfold remove
  rcases Nat.lt_or_ge k b.length with hlt | hge
  · obtain ⟨pre, s, t, suf, hp, hk⟩ := exists_append_cons_cons (k := k) b.positions
      (by rw [h.length_positions]; omega)
    have hold : b.instructions[k]? = some b.instructions[k] := List.getElem?_eq_getElem hlt
    have hs : b.positions[k]? = some s := by rw [hp, ← hk]; simp
    have ht : b.positions[k + 1]? = some t := by rw [hp, ← hk]; simp
    have he : b.positions.eraseIdx k = pre ++ t :: suf := by
      rw [hp, ← hk, eraseIdx_append_length]
    have hd : (pre ++ t :: suf).drop k = t :: suf := by rw [← hk, List.drop_left]
    refine Or.inr ⟨_, pre, s, t, suf, hlt, hold, hp, hk, ?_⟩
    rw [hold, hs, ht]
    dsimp only
    rw [he, hd]
  · have hold : b.instructions[k]? = none := List.getElem?_eq_none hge
    exact Or.inl ⟨hge, by rw [hold]⟩

theorem replace_cases (b : MethodBody) (k : Nat) (x : Instruction) :
    (b.length ≤ k ∧ b.replace k x = .error (.indexOutOfRange k b.length)) ∨
    ∃ old, k < b.length ∧ b.instructions[k]? = some old ∧
      b.replace k x = .ok (old, { b with instructions := b.instructions.set k x }) := by
  unfold replace
  rcases Nat.lt_or_ge k b.length with hlt | hge
  · have hold : b.instructions[k]? = some b.instructions[k] := List.getElem?_eq_getElem hlt
    exact Or.inr ⟨_, hlt, hold, by rw [hold]⟩
  · have hold : b.instructions[k]? = none := List.getElem?_eq_none hge
    exact Or.inl ⟨hge, by rw [hold]⟩

theorem wellPlaced_push (h : b.WellPlaced) (x : Instruction) : (b.push x).WellPlaced := by
  rw [push_eq]
  refine ⟨h.consistent.congr (fun _ => by simp) fun _ => by simp, ?_, ?_, fun i l hi => ?_⟩
  · simp [h.length_positions, length]
  · refine indexed_append.2 ⟨h.indexed.newLocation _, ?_, trivial⟩
    rw [index?_newLocation_self, h.length_positions, Nat.zero_add]
  · exact List.mem_append_left _ (h.placed i l hi)

theorem wellPlaced_ofInstructions (registerCount : UInt16) (xs : List Instruction) :
    (ofInstructions registerCount xs).WellPlaced := by
  suffices H : ∀ b : MethodBody, b.WellPlaced → (xs.foldl push b).WellPlaced from
    H _ (wellPlaced_empty registerCount)
  induction xs with
  | nil => exact fun _ hb => hb
  | cons x xs ih => exact fun b hb => ih (b.push x) (wellPlaced_push hb x)

theorem wellPlaced_insert (h : b.WellPlaced) (hb : b.insert k x = .ok b') : b'.WellPlaced := by
  rcases insert_cases h k x with ⟨-, e⟩ | ⟨-, e⟩ | ⟨pre, suf, hk, hp, hpre, e⟩ <;>
    rw [e] at hb <;> cases hb
  · exact wellPlaced_push h x
  have hnew : (b.arena.newLocation k).1 ∉ b.positions := fun hm =>
    not_hasLocation_newLocation (h.hasLocation hm)
  refine ⟨?_, ?_, ?_, fun i l hi => ?_⟩
  · exact h.consistent.congr (fun _ => by simp) fun _ => by simp
  · have hlen := h.length_positions
    rw [hp, List.length_append] at hlen
    simp only [length, List.length_append, List.length_cons,
      List.length_insertIdx_of_le_length (Nat.le_of_lt hk)] at hlen ⊢
    omega
  · have hi := h.indexed
    have hn := h.nodup
    rw [hp] at hi hn hnew
    have hfront : Indexed (b.arena.newLocation k).2 0 (pre ++ [(b.arena.newLocation k).1]) := by
      refine indexed_append.2 ⟨(indexed_append.1 hi).1.newLocation k, ?_, trivial⟩
      rw [index?_newLocation_self, hpre, Nat.zero_add]
    have hnodup : (pre ++ [(b.arena.newLocation k).1] ++ suf).Nodup := by
      rw [List.append_assoc, List.singleton_append]
      exact (List.nodup_middle.2 (List.nodup_cons.2 ⟨hnew, hn⟩))
    have hsuf := (indexed_append.1 hi).2.newLocation k
    have hall := hfront.append_reindex hnodup fun l hl => hsuf.hasLocation hl
    simpa [hpre] using hall
  · have hl := h.placed i l (by simpa using hi)
    rw [hp] at hl
    simp only [List.mem_append, List.mem_cons] at hl ⊢
    tauto

theorem wellPlaced_replace {old : Instruction} (h : b.WellPlaced)
    (hb : b.replace k x = .ok (old, b')) : b'.WellPlaced := by
  rcases replace_cases b k x with ⟨-, e⟩ | ⟨_, -, -, e⟩ <;> rw [e] at hb <;> cases hb
  exact ⟨h.consistent, by simp [h.length_positions, length], h.indexed, h.placed⟩

theorem wellPlaced_remove {old : Instruction} (h : b.WellPlaced)
    (hb : b.remove k = .ok (old, b')) : b'.WellPlaced := by
  rcases remove_cases h k with ⟨-, e⟩ | ⟨_, pre, s, t, suf, hk, -, hp, hpre, e⟩ <;>
    rw [e] at hb <;> cases hb
  have hi := h.indexed
  have hn := h.nodup
  rw [hp] at hi hn
  obtain ⟨hst, hf⟩ := h.merge_folds hp
  refine ⟨?_, ?_, ?_, fun i l hl => ?_⟩
  · exact (h.consistent.folds hst hf).congr (fun _ => by simp) fun _ => by simp
  · have hlen := h.length_positions
    rw [hp] at hlen
    simp only [length, List.length_append, List.length_cons,
      List.length_eraseIdx_of_lt hk] at hlen ⊢
    omega
  · have hfront := (indexed_append.1 hi).1.congr_indices hf.indices
    have hback := (indexed_append.1 hi).2.congr_indices hf.indices
    have hnodup : (pre ++ t :: suf).Nodup :=
      hn.sublist (List.Sublist.append_left (List.sublist_cons_self s (t :: suf)) pre)
    have hall := hfront.append_reindex hnodup fun l hl =>
      hback.hasLocation (List.mem_cons_of_mem s hl)
    rwa [hpre] at hall
  · rw [locationOf?_reindex, hf.locationOf?] at hl
    split at hl
    · cases hl; simp
    · rename_i hs
      have hm := h.placed i l hl
      have hls : l ≠ s := fun e => hs ((h.consistent.locationOf?_iff i s).1 (e ▸ hl))
      rw [hp] at hm
      simpa [hls] using hm

/-! ## Operations on items -/

theorem locationOf?_newItem_self {α : Type} {a : Arena α} (v : α) :
    (a.newItem v).2.locationOf? (a.newItem v).1 = none := by
  rw [locationOf?_newItem]
  simp [locationOf?, newItem]

/-- A new item is refused behind the end only; else it comes last at its position. -/
theorem addItem_cases (h : b.WellPlaced) (k : Nat) (v : Item) :
    (b.length < k ∧ b.addItem k v = .error (.indexOutOfRange k b.length)) ∨
    ∃ l a, k ≤ b.length ∧ b.positions[k]? = some l ∧
      Puts (b.arena.newItem v).2 a (b.arena.newItem v).1 l ∧
      b.addItem k v = .ok ((b.arena.newItem v).1, { b with arena := a }) := by
  unfold addItem
  rcases h.location_cases k with ⟨hk, e⟩ | ⟨l, hk, hl, e⟩ <;> rw [e]
  · exact Or.inl ⟨hk, rfl⟩
  · obtain ⟨a, ha⟩ := exists_attach_eq_ok (locationOf?_newItem_self (a := b.arena) v) l
    refine Or.inr ⟨l, a, hk, hl, attach_puts ?_ ?_ ha, ?_⟩
    · simp [HasItem, newItem]
    · exact h.hasLocation (List.mem_of_getElem? hl)
    · dsimp only
      rw [ha]

/-- Moving is refused behind the end only; else the item is taken from where it was and comes last
at its new position. -/
theorem moveItem_cases (h : b.WellPlaced) (hi : b.arena.HasItem i) (k : Nat) :
    (b.length < k ∧ b.moveItem i k = .error (.indexOutOfRange k b.length)) ∨
    ∃ l a, k ≤ b.length ∧ b.positions[k]? = some l ∧ Takes b.arena (b.arena.detach i).2 i ∧
      Puts (b.arena.detach i).2 a i l ∧ b.moveItem i k = .ok { b with arena := a } := by
  unfold moveItem
  rcases h.location_cases k with ⟨hk, e⟩ | ⟨l, hk, hl, e⟩ <;> rw [e]
  · exact Or.inl ⟨hk, rfl⟩
  · have ht := detach_takes (i := i) h.consistent
    have hn : (b.arena.detach i).2.locationOf? i = none := by rw [ht.locationOf?, if_pos rfl]
    obtain ⟨a, ha⟩ := exists_attach_eq_ok hn l
    refine Or.inr ⟨l, a, hk, hl, ht, attach_puts ?_ ?_ ha, ?_⟩
    · exact ht.hasItem.2 hi
    · exact ht.hasLocation.2 (h.hasLocation (List.mem_of_getElem? hl))
    · dsimp only
      rw [ha]

theorem wellPlaced_newItem (h : b.WellPlaced) (v : Item) :
    WellPlaced { b with arena := (b.arena.newItem v).2 } :=
  h.setArena (h.consistent.congr (fun _ => by simp) fun _ => by simp) (by simp) fun j m hj =>
    h.placed j m (by simpa using hj)

theorem wellPlaced_addItem {v : Item} (h : b.WellPlaced) (hb : b.addItem k v = .ok (i, b')) :
    b'.WellPlaced := by
  rcases addItem_cases h k v with ⟨-, e⟩ | ⟨l, a, -, hl, hp, e⟩ <;> rw [e] at hb <;> cases hb
  exact (wellPlaced_newItem h v).puts (locationOf?_newItem_self v) (List.mem_of_getElem? hl) hp

theorem wellPlaced_moveItem (h : b.WellPlaced) (hi : b.arena.HasItem i)
    (hb : b.moveItem i k = .ok b') : b'.WellPlaced := by
  rcases moveItem_cases h hi k with ⟨-, e⟩ | ⟨l, a, -, hl, ht, hp, e⟩ <;> rw [e] at hb <;> cases hb
  have hn : (b.arena.detach i).2.locationOf? i = none := by rw [ht.locationOf?, if_pos rfl]
  exact (h.takes ht).puts hn (List.mem_of_getElem? hl) hp

theorem wellPlaced_addTryBlock (h : b.WellPlaced) (block : TryBlock) :
    (b.addTryBlock block).WellPlaced :=
  ⟨h.consistent, h.length_positions, h.indexed, h.placed⟩

end DalvikLinkage.Body.MethodBody
