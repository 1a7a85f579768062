import DalvikLinkage.Proofs.Body.ArenaViews
import DalvikLinkage.Proofs.Machine

/-!
# Placement

The lists of an arena and the back-references of its items are two copies of one relation, and
attaching, detaching, merging and removing at a cursor each change both. A session is an arena with
all cursors that were ever opened on it; its steps are the operations of the arena and of any of
these cursors, in any order. A step names only handles that were given out before.

Results:
* `inv_step`: a step, refused or not, keeps the two copies in agreement and the cursors at locations
  of the arena;
* `run_agrees`: after every run an item is at a location exactly if the location's list has it, and
  then it is there once, in no other list, and all handles that are stored have been given out.
-/
namespace DalvikLinkage.Body.Arena

/-- An arena and the cursors that were opened on it, by their numbers. -/
structure Session (α : Type) where
  arena : Arena α := {}
  cursors : List Cursor := []

inductive Op (α : Type)
  | newLocation (index : Nat)
  | newItem (value : α)
  | setValue (i : ItemId) (value : α)
  | setIndex (l : LocationId) (index : Nat)
  | attach (i : ItemId) (l : LocationId)
  | detach (i : ItemId)
  | merge (source target : LocationId)
  | openCursor (l : LocationId)
  | advance (k : Nat)
  | removeAt (k : Nat)
  | addAt (k : Nat) (i : ItemId)

namespace Session

variable {α : Type}

/-- The operation names only handles that were given out before. -/
def Admits (s : Session α) : Op α → Prop
  | .newLocation _ | .newItem _ => True
  | .setValue i _ | .detach i => s.arena.HasItem i
  | .setIndex l _ | .openCursor l => s.arena.HasLocation l
  | .attach i l => s.arena.HasItem i ∧ s.arena.HasLocation l
  | .merge source target => s.arena.HasLocation source ∧ s.arena.HasLocation target
  | .advance k | .removeAt k => k < s.cursors.length
  | .addAt k i => k < s.cursors.length ∧ s.arena.HasItem i

instance (s : Session α) : (op : Op α) → Decidable (s.Admits op)
  | .newLocation _ | .newItem _ => isTrue trivial
  | .setValue i _ | .detach i => inferInstanceAs (Decidable (s.arena.HasItem i))
  | .setIndex l _ | .openCursor l => inferInstanceAs (Decidable (s.arena.HasLocation l))
  | .attach i l => inferInstanceAs (Decidable (s.arena.HasItem i ∧ s.arena.HasLocation l))
  | .merge source target =>
    inferInstanceAs (Decidable (s.arena.HasLocation source ∧ s.arena.HasLocation target))
  | .advance k | .removeAt k => inferInstanceAs (Decidable (k < s.cursors.length))
  | .addAt k i => inferInstanceAs (Decidable (k < s.cursors.length ∧ s.arena.HasItem i))

/-- The session with the `k`-th cursor and the arena as an operation at the cursor left them. -/
def setCursor (s : Session α) (k : Nat) (c : Cursor) (a : Arena α) : Session α :=
  ⟨a, s.cursors.set k c⟩

/-- The session after an operation; one that is refused changes no more than its refusal does. -/
def step (s : Session α) : Op α → Session α
  | .newLocation index => { s with arena := (s.arena.newLocation index).2 }
  | .newItem value => { s with arena := (s.arena.newItem value).2 }
  | .setValue i value => { s with arena := s.arena.setValue i value }
  | .setIndex l index => { s with arena := s.arena.setIndex l index }
  | .attach i l =>
    match s.arena.attach i l with
    | .error _ => s
    | .ok a => { s with arena := a }
  | .detach i => { s with arena := (s.arena.detach i).2 }
  | .merge source target => { s with arena := s.arena.merge source target }
  | .openCursor location => { s with cursors := s.cursors ++ [{ location }] }
  | .advance k =>
    match s.cursors[k]? with
    | none => s
    | some c => s.setCursor k (c.advance s.arena).2 s.arena
  | .removeAt k =>
    match s.cursors[k]? with
    | none => s
    | some c => s.setCursor k (c.remove s.arena).2.1 (c.remove s.arena).2.2
  | .addAt k i =>
    match s.cursors[k]? with
    | none => s
    | some c =>
      match c.add s.arena i with
      | .error _ => s
      | .ok (c, a) => s.setCursor k c a

/-- Lists and back-references agree, and the cursors are at locations of the arena. -/
structure Inv (s : Session α) : Prop where
  consistent : s.arena.Consistent
  cursors : ∀ c ∈ s.cursors, s.arena.HasLocation c.location

end Session

/-- The runs of an arena and its cursors. -/
def machine (α : Type) : Machine (Session α) (Op α) :=
  ⟨Session.Admits, Session.step⟩

instance (α : Type) (s : Session α) (op : Op α) : Decidable ((machine α).Admits s op) :=
  inferInstanceAs (Decidable (s.Admits op))

/-! ## One step -/

namespace Session

variable {α : Type} {s : Session α} {a : Arena α} {k : Nat} {c c' : Cursor}

theorem inv_empty : ({} : Session α).Inv where
  consistent := ⟨fun _ _ => by simp [locationOf?, itemsAt], fun _ => by simp [itemsAt]⟩
  cursors := by simp

/-- The arena may change if it stays consistent and takes no location back. -/
theorem Inv.setArena (h : s.Inv) (hc : a.Consistent)
    (hl : ∀ l, s.arena.HasLocation l → a.HasLocation l) : Inv { s with arena := a } where
  consistent := hc
  cursors c hm := hl c.location (h.cursors c hm)

theorem Inv.keep (h : s.Inv) (hc : a.Consistent) (hk : Keeps s.arena a) :
    Inv { s with arena := a } :=
  h.setArena hc fun _ => hk.hasLocation.2

/-- A cursor may move on at its location. -/
theorem Inv.setCursor (h : s.Inv) (hk : s.cursors[k]? = some c) (hl : c'.location = c.location)
    (hc : a.Consistent) (ha : Keeps s.arena a) : (s.setCursor k c' a).Inv where
  consistent := hc
  cursors d hd := by
    refine ha.hasLocation.2 ?_
    rcases List.mem_or_eq_of_mem_set hd with hd | rfl
    · exact h.cursors d hd
    · rw [hl]
      exact h.cursors c (List.mem_of_getElem? hk)

theorem inv_attach (h : s.Inv) {i : ItemId} {l : LocationId} (hi : s.arena.HasItem i)
    (hl : s.arena.HasLocation l) : (s.step (.attach i l)).Inv := by
  simp only [step]
  cases ha : s.arena.attach i l with
  | error e => exact h
  | ok a =>
    have hp := attach_puts hi hl ha
    exact h.keep (h.consistent.puts (attach_eq_ok_iff.1 ha).1 hp) hp.toKeeps

theorem inv_merge (h : s.Inv) {source target : LocationId} (ht : s.arena.HasLocation target) :
    (s.step (.merge source target)).Inv := by
  by_cases hs : source = target
  · simp only [step, hs, merge_self]; exact h
  · have hf := merge_folds h.consistent ht hs
    exact h.keep (h.consistent.folds hs hf) hf.toKeeps

theorem inv_advance (h : s.Inv) (k : Nat) : (s.step (.advance k)).Inv := by
  simp only [step]
  cases hk : s.cursors[k]? with
  | none => exact h
  | some c =>
    refine h.setCursor hk ?_ h.consistent (Keeps.refl _)
    rcases c.advance_cases s.arena with ⟨-, e⟩ | ⟨i, -, e⟩ <;> rw [e]

theorem inv_removeAt (h : s.Inv) (k : Nat) : (s.step (.removeAt k)).Inv := by
  simp only [step]
  cases hk : s.cursors[k]? with
  | none => exact h
  | some c =>
    rcases c.remove_cases s.arena with ⟨-, e⟩ | ⟨p, i, -, hp, e⟩
    · simp only [e]
      exact h.setCursor hk rfl h.consistent (Keeps.refl _)
    · have ht := Cursor.remove_takes h.consistent hp
      simp only [e]
      exact h.setCursor hk rfl (h.consistent.takes ht) ht.toKeeps

theorem inv_addAt (h : s.Inv) (k : Nat) {i : ItemId} (hi : s.arena.HasItem i) :
    (s.step (.addAt k i)).Inv := by
  simp only [step]
  cases hk : s.cursors[k]? with
  | none => exact h
  | some c =>
    rcases c.add_cases s.arena i with ⟨e, -, he⟩ | ⟨a, ha, he⟩
    · simp only [he]; exact h
    · have hp := attach_puts hi (h.cursors c (List.mem_of_getElem? hk)) ha
      simp only [he]
      exact h.setCursor hk rfl (h.consistent.puts (attach_eq_ok_iff.1 ha).1 hp) hp.toKeeps

/-- Every step that is asked for with known handles keeps the invariant, refused or not. -/
theorem inv_step (s : Session α) (op : Op α) (h : s.Inv) (hop : s.Admits op) : (s.step op).Inv := by
  have hc := h.consistent
  cases op with
  | newLocation n =>
    exact h.setArena (hc.congr (fun _ => by simp) fun _ => by simp) fun _ hl => hl.newLocation n
  | newItem v => exact h.setArena (hc.congr (fun _ => by simp) fun _ => by simp) fun _ hl => hl
  | setValue i v => exact h.setArena (hc.congr (fun _ => by simp) fun _ => by simp) fun _ hl => hl
  | setIndex l n =>
    refine h.setArena (hc.congr (fun _ => by simp) fun _ => by simp) fun l hl => ?_
    simpa [hasLocation_iff] using hl
  | attach i l => exact inv_attach h hop.1 hop.2
  | detach i =>
    have ht := detach_takes (i := i) hc
    exact h.keep (hc.takes ht) ht.toKeeps
  | merge source target => exact inv_merge h hop.2
  | openCursor l =>
    refine ⟨hc, fun c hm => ?_⟩
    rcases List.mem_append.1 hm with hm | hm
    · exact h.cursors c hm
    · rw [List.mem_singleton.1 hm]; exact hop
  | advance k => exact inv_advance h k
  | removeAt k => exact inv_removeAt h k
  | addAt k i => exact inv_addAt h k hop.2

/-! ## Runs -/

theorem inv_run (ops : List (Op α)) (h : (machine α).AdmitsRun {} ops) :
    ((machine α).run {} ops).Inv :=
  (machine α).run_inv inv_step ops {} inv_empty h

end Session

variable {α : Type}

/-- **Nothing is lost, doubled or left dangling.** Whatever was done to an arena and with cursors on
it, an item says that it is at a location exactly if the location's list has it; it is there once
and in no other list; and every handle in a list or a back-reference has been given out. -/
theorem run_agrees (ops : List (Op α)) (h : (machine α).AdmitsRun {} ops) :
    let a := ((machine α).run {} ops).arena
    (∀ i l, a.locationOf? i = some l ↔ i ∈ a.itemsAt l) ∧
    (∀ l, (a.itemsAt l).Nodup) ∧
    (∀ i l l', i ∈ a.itemsAt l → i ∈ a.itemsAt l' → l = l') ∧
    (∀ i l, i ∈ a.itemsAt l → a.HasItem i ∧ a.HasLocation l) ∧
    (∀ i l, a.locationOf? i = some l → a.HasItem i ∧ a.HasLocation l) := by
  intro a
  have hc : a.Consistent := (Session.inv_run ops h).consistent
  refine ⟨hc.locationOf?_iff, hc.nodup, fun _ _ _ => hc.eq_of_mem, fun i l hi => ?_,
    fun i l hi => ?_⟩
  · exact ⟨hc.hasItem hi, hasLocation_of_mem hi⟩
  · exact ⟨hasItem_of_locationOf? hi, hc.hasLocation hi⟩

/-- A run with a refused attachment, a merge and a removal in the middle of a walk. -/
def tour : List (Op String) :=
  [.newLocation 0, .newLocation 1, .newItem "start", .newItem "line", .newItem "stop",
    .attach ⟨0⟩ ⟨0⟩, .attach ⟨1⟩ ⟨0⟩, .attach ⟨2⟩ ⟨1⟩, .attach ⟨0⟩ ⟨1⟩, .merge ⟨0⟩ ⟨1⟩,
    .openCursor ⟨1⟩, .advance 0, .advance 0, .removeAt 0, .removeAt 0, .addAt 0 ⟨1⟩, .detach ⟨0⟩]

theorem run_agrees_tour :
    (machine String).AdmitsRun {} tour ∧
    ((machine String).run {} tour).arena.itemsAt ⟨1⟩ = [⟨2⟩, ⟨1⟩] ∧
    ((machine String).run {} tour).arena.locationOf? ⟨1⟩ = some ⟨1⟩ :=
  have h : (machine String).AdmitsRun {} tour := by decide
  ⟨h, by decide, ((run_agrees tour h).1 ⟨1⟩ ⟨1⟩).2 (by decide)⟩

end DalvikLinkage.Body.Arena
