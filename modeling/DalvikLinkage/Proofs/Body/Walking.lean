import DalvikLinkage.Proofs.Body.InPlace
import DalvikLinkage.Proofs.Body.Placement

/-!
# Walking with a cursor

A cursor has two indices into a list that it changes itself: where it goes on, and where the item
stands that it can remove. What they are to mean is said by the history of the walk. The items that
the cursor came past, with the items that are still ahead of it, are those that the location had when
the walk began and those that were added on the way, each in its turn; and the item to remove is the
one that it came past last, unless something was removed or added since.

A trail is a walk with its history. `Inv` ties the indices to it: the items of the location are those
that were kept behind the cursor and those ahead of it, and the current item is the last that was
kept.

Results:
* `next_cases`, `remove_cases`, `add_cases`: what one move does, by the history;
* `inv_step`: every move keeps the invariant;
* `run_walk`: what the moves of a cursor do, whatever was done with it before.
-/
namespace DalvikLinkage.Body

open Arena

/-- What is done with a cursor. -/
inductive Move
  | next
  | remove
  | add (i : ItemId)
  deriving DecidableEq

/-- What came of a move. -/
inductive Event
  /-- The cursor came past an item, or there was none. -/
  | passed (i : Option ItemId)
  | removed (i : ItemId)
  | added (i : ItemId)
  | stopped (move : Move) (stop : Stop)
  deriving DecidableEq

namespace Event

/-- Nothing was passed or added, and nothing was to be removed. -/
def isIdle : Event → Bool
  | passed none | stopped (.add _) _ => true
  | _ => false

def passed? : Event → Option ItemId
  | passed i => i
  | _ => none

def added? : Event → Option ItemId
  | added i => some i
  | _ => none

/-- The item that was removed or added. -/
def moved? : Event → Option ItemId
  | removed i | added i => some i
  | _ => none

end Event

/-- A walk and what came of its moves so far, latest first. -/
structure Trail (α : Type) where
  walk : Walk α
  past : List Event := []

/-! ## History -/

section History

/-- The items that the cursor came past, in this order. -/
def yielded (past : List Event) : List ItemId :=
  past.reverse.filterMap Event.passed?

/-- The items that were added at the cursor, in this order. -/
def added (past : List Event) : List ItemId :=
  past.reverse.filterMap Event.added?

/-- The cursor came past the item, and whatever was tried since is idle. -/
def IsCurrent (past : List Event) (i : ItemId) : Prop :=
  ∃ since before, past = since ++ .passed (some i) :: before ∧ ∀ event ∈ since, event.isIdle

/-- The item that was passed last, if nothing was removed or added since. -/
def current? : List Event → Option ItemId
  | [] => none
  | .passed (some i) :: _ => some i
  | event :: past => if event.isIdle then current? past else none

variable {past : List Event} {event : Event} {i : ItemId}

theorem yielded_cons : yielded (event :: past) = yielded past ++ event.passed?.toList := by
  cases h : event.passed? <;> simp [yielded, h]

theorem added_cons : added (event :: past) = added past ++ event.added?.toList := by
  cases h : event.added? <;> simp [added, h]

theorem current?_cons (h : event.passed? = none) :
    current? (event :: past) = if event.isIdle then current? past else none := by
  cases event with
  | passed j =>
    cases h
    rfl
  | removed | added | stopped => rfl

theorem current?_eq_some_iff : current? past = some i ↔ IsCurrent past i := by
  constructor
  · intro h
    fun_induction current? past with
    | case1 => cases h
    | case2 j before =>
      cases h
      exact ⟨[], before, rfl, by simp⟩
    | case3 event past hne hidle ih =>
      obtain ⟨since, before, rfl, hsince⟩ := ih h
      exact ⟨event :: since, before, rfl, List.forall_mem_cons.2 ⟨hidle, hsince⟩⟩
    | case4 => cases h
  · rintro ⟨since, before, rfl, hsince⟩
    induction since with
    | nil => rfl
    | cons event since ih =>
      obtain ⟨hidle, hsince⟩ := List.forall_mem_cons.1 hsince
      have hpassed : event.passed? = none := by
        cases event with
        | passed j => cases j with
          | none => rfl
          | some j => cases hidle
        | removed | added | stopped => rfl
      rw [List.cons_append, current?_cons hpassed, if_pos hidle]
      exact ih hsince

end History

namespace Trail

variable {α : Type}

/-! ## Moves -/

/-- A cursor at a location, before its first move. -/
def start (a : Arena α) (location : LocationId) : Trail α :=
  { walk := { cursor := { location }, arena := a } }

/-- The trail after a move with that outcome. -/
def goOn {β : Type} (t : Trail α) (move : Move) (event : β → Event) :
    EStateM.Result Stop (Walk α) β → Trail α
  | .ok b walk => { walk, past := event b :: t.past }
  | .error stop walk => { walk, past := .stopped move stop :: t.past }

def step (t : Trail α) : Move → Trail α
  | .next => t.goOn .next .passed (Walk.next.run t.walk)
  | .remove => t.goOn .remove .removed (Walk.remove.run t.walk)
  | .add i => t.goOn (.add i) (fun _ => .added i) ((Walk.add i).run t.walk)

/-- Only items of the arena can be added. -/
def Admits (t : Trail α) : Move → Prop
  | .next | .remove => True
  | .add i => t.walk.arena.HasItem i

instance (t : Trail α) : (move : Move) → Decidable (t.Admits move)
  | .next | .remove => isTrue trivial
  | .add i => inferInstanceAs (Decidable (t.walk.arena.HasItem i))

def machine (α : Type) : Machine (Trail α) Move :=
  ⟨Admits, step⟩

instance (t : Trail α) (move : Move) : Decidable ((machine α).Admits t move) :=
  inferInstanceAs (Decidable (t.Admits move))

/-- Where a walk through the items at `l` stands that began in the arena `a`: `kept` are the items
behind the cursor and `ahead` those it has still to come to. -/
structure Inv (a : Arena α) (l : LocationId) (t : Trail α) (kept ahead : List ItemId) : Prop where
  consistent : t.walk.arena.Consistent
  keeps : Keeps a t.walk.arena
  hasLocation : a.HasLocation l
  location : t.walk.cursor.location = l
  items : t.walk.arena.itemsAt l = kept ++ ahead
  next : t.walk.cursor.next = kept.length
  order : yielded t.past ++ ahead = a.itemsAt l ++ added t.past
  sublist : kept.Sublist (yielded t.past)
  last : match current? t.past with
    | none => t.walk.cursor.last = none
    | some i => ∃ before, kept = before ++ [i] ∧ t.walk.cursor.last = some before.length
  others : ∀ l', l' ≠ l → t.walk.arena.itemsAt l' = a.itemsAt l'
  unmoved : ∀ j, (∀ event ∈ t.past, event.moved? ≠ some j) →
    t.walk.arena.locationOf? j = a.locationOf? j

theorem inv_start {a : Arena α} {l : LocationId} (hc : a.Consistent) (hl : a.HasLocation l) :
    Inv a l (start a l) [] (a.itemsAt l) where
  consistent := hc
  keeps := Keeps.refl a
  hasLocation := hl
  location := rfl
  items := rfl
  next := rfl
  order := by simp [start, yielded, added]
  sublist := List.nil_sublist _
  last := rfl
  others _ _ := rfl
  unmoved _ _ := rfl

/-! ## One move -/

variable {a : Arena α} {l : LocationId} {t : Trail α} {kept ahead : List ItemId} {i : ItemId}

theorem Inv.hasLocation_cursor (h : Inv a l t kept ahead) :
    t.walk.arena.HasLocation t.walk.cursor.location := by
  rw [h.location]
  exact h.keeps.hasLocation.2 h.hasLocation

/-- Going on finds the first item ahead, and else changes nothing. -/
theorem next_cases (h : Inv a l t kept ahead) :
    (ahead = [] ∧ Walk.next.run t.walk = .ok none t.walk) ∨
    ∃ i rest, ahead = i :: rest ∧ Walk.next.run t.walk = .ok (some i)
      { t.walk with cursor := { t.walk.cursor with
          next := kept.length + 1, last := some kept.length } } := by
  have hahead : (t.walk.arena.itemsAt t.walk.cursor.location)[t.walk.cursor.next]? =
      ahead.head? := by
    rw [h.location, h.items, h.next, List.getElem?_append_right (Nat.le_refl _), Nat.sub_self,
      List.head?_eq_getElem?]
  rw [Walk.run_next h.hasLocation_cursor]
  rcases t.walk.cursor.advance_cases t.walk.arena with ⟨hn, he⟩ | ⟨i, hi, he⟩ <;> rw [he]
  · rw [hahead] at hn
    exact .inl ⟨List.head?_eq_none_iff.1 hn, rfl⟩
  · rw [hahead] at hi
    obtain ⟨rest, rfl⟩ := List.head?_eq_some_iff.1 hi
    exact .inr ⟨i, rest, rfl, by rw [← h.next]⟩

/-- Removing takes the current item away, and without one it is refused and changes nothing. -/
theorem remove_cases (h : Inv a l t kept ahead) :
    (current? t.past = none ∧
      Walk.remove.run t.walk = .error (.refused .noCurrentItem) t.walk) ∨
    ∃ i before w, current? t.past = some i ∧ kept = before ++ [i] ∧
      Walk.remove.run t.walk = .ok i w ∧ Takes t.walk.arena w.arena i ∧
      w.arena.itemsAt l = before ++ ahead ∧
      w.cursor = { location := l, next := before.length, last := none } := by
  have hlast := h.last
  rw [Walk.run_remove h.consistent h.hasLocation_cursor]
  unfold Cursor.remove
  cases hc : current? t.past with
  | none =>
    rw [hc] at hlast
    exact .inl ⟨rfl, by simp only [hlast]⟩
  | some i =>
    rw [hc] at hlast
    obtain ⟨before, hkept, hlast⟩ := hlast
    have hitems : t.walk.arena.itemsAt t.walk.cursor.location = before ++ i :: ahead := by
      rw [h.location, h.items, hkept, List.append_assoc, List.singleton_append]
    have hi : (t.walk.arena.itemsAt t.walk.cursor.location)[before.length]? = some i := by
      rw [hitems]
      simp
    simp only [hlast, hi]
    refine .inr ⟨i, before, _, rfl, hkept, rfl, Cursor.remove_takes h.consistent hi, ?_, ?_⟩
    · rw [itemsAt_setLocation, ← h.location, itemsAt_setItems_self h.hasLocation_cursor, hitems,
        MethodBody.eraseIdx_append_length]
    · rw [h.location]

theorem add_cases (h : Inv a l t kept ahead) (hi : t.walk.arena.HasItem i) :
    (∃ current, t.walk.arena.locationOf? i = some current ∧
      (Walk.add i).run t.walk = .error (.refused (.alreadyPlaced i current l)) t.walk) ∨
    ∃ arena, t.walk.arena.locationOf? i = none ∧ Puts t.walk.arena arena i l ∧
      (Walk.add i).run t.walk =
        .ok () { cursor := { t.walk.cursor with last := none }, arena } := by
  rw [Walk.run_add hi h.hasLocation_cursor]
  rcases t.walk.cursor.add_cases t.walk.arena i with ⟨e, ha, he⟩ | ⟨arena, ha, he⟩ <;> rw [he] <;>
    rw [h.location] at ha
  · obtain ⟨current, hcurrent, rfl⟩ := attach_eq_error_iff.1 ha
    exact .inl ⟨current, hcurrent, rfl⟩
  · exact .inr ⟨arena, (attach_eq_ok_iff.1 ha).1, attach_puts hi (h.keeps.hasLocation.2 h.hasLocation) ha, rfl⟩

/-- An event that neither passes nor moves an item adds nothing to the history. -/
theorem Inv.quiet {event : Event} (h : Inv a l t kept ahead) (hpassed : event.passed? = none)
    (hadded : event.added? = none) (hcurrent : current? (event :: t.past) = current? t.past) :
    Inv a l { t with past := event :: t.past } kept ahead :=
  { h with
    order := by
      rw [yielded_cons, added_cons, hpassed, hadded]
      simpa using h.order
    sublist := by
      rw [yielded_cons, hpassed]
      simpa using h.sublist
    last := by
      rw [hcurrent]
      exact h.last
    unmoved := fun j hj => h.unmoved j fun e he => hj e (List.mem_cons_of_mem _ he) }

theorem inv_next (h : Inv a l t kept ahead) :
    ∃ kept' ahead', Inv a l (t.step .next) kept' ahead' := by
  rcases next_cases h with ⟨rfl, he⟩ | ⟨i, rest, rfl, he⟩ <;> simp only [step, he, goOn]
  · exact ⟨kept, [], h.quiet rfl rfl rfl⟩
  · refine ⟨kept ++ [i], rest, { h with
      items := ?_, next := ?_, order := ?_, sublist := ?_, last := ⟨kept, rfl, rfl⟩,
      unmoved := fun j hj => h.unmoved j fun e he => hj e (List.mem_cons_of_mem _ he) }⟩
    · rw [h.items, List.append_assoc, List.singleton_append]
    · rw [List.length_append, List.length_singleton]
    · rw [yielded_cons, added_cons]
      simpa [Event.passed?, Event.added?] using h.order
    · rw [yielded_cons]
      exact h.sublist.append_right _

/-- Behind the removed item, the walk goes on with what was ahead before. -/
theorem inv_removed {before : List ItemId} {w : Walk α} (h : Inv a l t (before ++ [i]) ahead)
    (ht : Takes t.walk.arena w.arena i) (hitems : w.arena.itemsAt l = before ++ ahead)
    (hcursor : w.cursor = { location := l, next := before.length, last := none }) :
    Inv a l { walk := w, past := .removed i :: t.past } before ahead where
  consistent := h.consistent.takes ht
  keeps := h.keeps.trans ht.toKeeps
  hasLocation := h.hasLocation
  location := by rw [hcursor]
  items := hitems
  next := by rw [hcursor]
  order := by
    rw [yielded_cons, added_cons]
    simpa [Event.passed?, Event.added?] using h.order
  sublist := by
    rw [yielded_cons]
    simpa [Event.passed?] using (List.sublist_append_left before [i]).trans h.sublist
  last := by rw [hcursor]; rfl
  others l' hl' := by
    have hi : i ∈ t.walk.arena.itemsAt l := by
      rw [h.items]
      simp
    exact (h.consistent.itemsAt_of_takes ht hi hl').trans (h.others l' hl')
  unmoved j hj := by
    obtain ⟨hji, hpast⟩ := List.forall_mem_cons.1 hj
    rw [ht.locationOf?, if_neg fun e => hji (congrArg some e.symm)]
    exact h.unmoved j hpast

theorem inv_remove (h : Inv a l t kept ahead) :
    ∃ kept' ahead', Inv a l (t.step .remove) kept' ahead' := by
  rcases remove_cases h with ⟨hc, he⟩ | ⟨i, before, w, -, rfl, he, ht, hitems, hcursor⟩ <;>
    simp only [step, he, goOn]
  · exact ⟨kept, ahead, h.quiet rfl rfl hc.symm⟩
  · exact ⟨before, ahead, inv_removed h ht hitems hcursor⟩

theorem inv_add (h : Inv a l t kept ahead) (hi : t.walk.arena.HasItem i) :
    ∃ kept' ahead', Inv a l (t.step (.add i)) kept' ahead' := by
  rcases add_cases h hi with ⟨current, -, he⟩ | ⟨arena, hn, hp, he⟩ <;> simp only [step, he, goOn]
  · exact ⟨kept, ahead, h.quiet rfl rfl rfl⟩
  · refine ⟨kept, ahead ++ [i], {
      consistent := h.consistent.puts hn hp
      keeps := h.keeps.trans hp.toKeeps
      hasLocation := h.hasLocation
      location := h.location
      items := ?_
      next := h.next
      order := ?_
      sublist := ?_
      last := rfl
      others := fun l' hl' => ?_
      unmoved := fun j hj => ?_ }⟩
    · rw [hp.itemsAt, if_pos rfl, h.items, List.append_assoc]
    · have horder : yielded t.past ++ (ahead ++ [i]) = a.itemsAt l ++ (added t.past ++ [i]) := by
        rw [← List.append_assoc, h.order, List.append_assoc]
      rw [yielded_cons, added_cons]
      simpa [Event.passed?, Event.added?] using horder
    · rw [yielded_cons]
      simpa [Event.passed?] using h.sublist
    · rw [hp.itemsAt, if_neg hl']
      exact h.others l' hl'
    · obtain ⟨hji, hpast⟩ := List.forall_mem_cons.1 hj
      rw [hp.locationOf?, if_neg fun e => hji (congrArg some e.symm)]
      exact h.unmoved j hpast

/-- Every move keeps the invariant. -/
theorem inv_step (t : Trail α) (move : Move) (h : ∃ kept ahead, Inv a l t kept ahead)
    (hmove : t.Admits move) : ∃ kept ahead, Inv a l (t.step move) kept ahead := by
  obtain ⟨kept, ahead, h⟩ := h
  cases move with
  | next => exact inv_next h
  | remove => exact inv_remove h
  | add i => exact inv_add h hmove

/-! ## Walks -/

theorem inv_run (moves : List Move) (hc : a.Consistent) (hl : a.HasLocation l)
    (hmoves : (machine α).AdmitsRun (start a l) moves) :
    ∃ kept ahead, Inv a l ((machine α).run (start a l) moves) kept ahead :=
  (machine α).run_inv inv_step moves _ ⟨[], a.itemsAt l, inv_start hc hl⟩ hmoves

/-- The next item is the first one ahead, and going on leaves the arena as it is. -/
theorem next_head (h : Inv a l t kept ahead) :
    ∃ w, Walk.next.run t.walk = .ok ahead.head? w ∧ w.arena = t.walk.arena := by
  rcases next_cases h with ⟨rfl, he⟩ | ⟨i, rest, rfl, he⟩
  · exact ⟨_, he, rfl⟩
  · exact ⟨_, he, rfl⟩

theorem exists_remove_iff (h : Inv a l t kept ahead) :
    (∃ w, Walk.remove.run t.walk = .ok i w) ↔ IsCurrent t.past i := by
  rw [← current?_eq_some_iff]
  rcases remove_cases h with ⟨hc, he⟩ | ⟨j, before, w, hc, -, he, -⟩ <;> rw [hc, he]
  · simp
  · constructor
    · rintro ⟨_, hok⟩
      cases hok
      rfl
    · intro hj
      cases hj
      exact ⟨w, rfl⟩

/-- A removal takes the current item out of the middle, and the walk goes on with the item that came
after it. -/
theorem remove_ok {w : Walk α} (h : Inv a l t kept ahead) (hw : Walk.remove.run t.walk = .ok i w) :
    Takes t.walk.arena w.arena i ∧ ∃ before after w',
      t.walk.arena.itemsAt l = before ++ i :: after ∧ w.arena.itemsAt l = before ++ after ∧
      Walk.next.run w = .ok after.head? w' := by
  rcases remove_cases h with ⟨-, he⟩ | ⟨_, before, _, -, rfl, he, ht, hitems, hcursor⟩ <;>
    rw [he] at hw <;> cases hw
  obtain ⟨w', hnext, -⟩ := next_head (inv_removed h ht hitems hcursor)
  refine ⟨ht, before, ahead, w', ?_, hitems, hnext⟩
  rw [h.items, List.append_assoc, List.singleton_append]

/-- **A cursor walks through the items of its location in order and removes just what it came past
last.** Whatever was done to an arena before a cursor was made, and whatever was done with the cursor
since:

* the items that it came past and those ahead of it are the items that were there and those that
  were added, in this order, each time they were placed; the next one is the first of those ahead,
  and none only if nothing is ahead;
* an item is removed exactly if the cursor came past it and nothing was removed or added since; it is
  taken away and nothing else is, and the next item is the one that came after it;
* where nothing can be removed, that is refused and changes nothing;
* an item that is nowhere is added at the end, and adding any other one is refused and changes
  nothing;
* the lists of other locations stay as they were, and so does the place of every item that was
  neither removed nor added.

All of this is said of moves in place, which come to the same as those that give a new cursor and a
new arena. -/
theorem run_walk (ops : List (Op α)) (hops : (Arena.machine α).AdmitsRun {} ops) (l : LocationId)
    (hl : ((Arena.machine α).run {} ops).arena.HasLocation l) (moves : List Move)
    (hmoves : (Trail.machine α).AdmitsRun (start ((Arena.machine α).run {} ops).arena l) moves) :
    let a := ((Arena.machine α).run {} ops).arena
    let t := (Trail.machine α).run (start a l) moves
    t.walk.Agrees ∧
    (∃ kept ahead w, t.walk.arena.itemsAt l = kept ++ ahead ∧ kept.Sublist (yielded t.past) ∧
      yielded t.past ++ ahead = a.itemsAt l ++ added t.past ∧
      Walk.next.run t.walk = .ok ahead.head? w ∧ w.arena = t.walk.arena) ∧
    (∀ i, (∃ w, Walk.remove.run t.walk = .ok i w) ↔ IsCurrent t.past i) ∧
    (∀ i w, Walk.remove.run t.walk = .ok i w → Takes t.walk.arena w.arena i ∧
      ∃ before after w', t.walk.arena.itemsAt l = before ++ i :: after ∧
        w.arena.itemsAt l = before ++ after ∧ Walk.next.run w = .ok after.head? w') ∧
    (∀ stop w, Walk.remove.run t.walk = .error stop w →
      stop = .refused .noCurrentItem ∧ w = t.walk) ∧
    (∀ i, t.walk.arena.HasItem i →
      (∀ w, (Walk.add i).run t.walk = .ok () w → Puts t.walk.arena w.arena i l) ∧
      ∀ stop w, (Walk.add i).run t.walk = .error stop w →
        (∃ current, t.walk.arena.locationOf? i = some current ∧
          stop = .refused (.alreadyPlaced i current l)) ∧ w = t.walk) ∧
    (∀ l', l' ≠ l → t.walk.arena.itemsAt l' = a.itemsAt l') ∧
    ∀ j, (∀ event ∈ t.past, event.moved? ≠ some j) →
      t.walk.arena.locationOf? j = a.locationOf? j := by
  intro a t
  obtain ⟨kept, ahead, h⟩ : ∃ kept ahead, Inv a l t kept ahead :=
    inv_run moves (Session.inv_run ops hops).consistent hl hmoves
  obtain ⟨w, hnext, harena⟩ := next_head h
  refine ⟨Walk.agrees h.consistent h.hasLocation_cursor,
    ⟨kept, ahead, w, h.items, h.sublist, h.order, hnext, harena⟩,
    fun i => exists_remove_iff h, fun i w => remove_ok h, fun stop w hw => ?_,
    fun i hi => ⟨fun w hw => ?_, fun stop w hw => ?_⟩, h.others, h.unmoved⟩
  · rcases remove_cases h with ⟨-, he⟩ | ⟨_, _, _, -, -, he, -⟩ <;> rw [he] at hw <;> cases hw
    exact ⟨rfl, rfl⟩
  · rcases add_cases h hi with ⟨_, -, he⟩ | ⟨_, -, hp, he⟩ <;> rw [he] at hw <;> cases hw
    exact hp
  · rcases add_cases h hi with ⟨current, hc, he⟩ | ⟨_, -, -, he⟩ <;> rw [he] at hw <;> cases hw
    exact ⟨⟨current, hc, rfl⟩, rfl⟩

/-- Three items at one location and one at another. -/
def shelves : List (Op String) :=
  [.newLocation 0, .newLocation 1, .newItem "start", .newItem "line", .newItem "stop",
    .newItem "other", .attach ⟨0⟩ ⟨0⟩, .attach ⟨1⟩ ⟨0⟩, .attach ⟨2⟩ ⟨0⟩, .attach ⟨3⟩ ⟨1⟩]

/-- A walk that takes an item out, puts it back at the end and comes to it again; removing twice and
adding an item of another location is refused. -/
def stroll : List Move :=
  [.next, .next, .remove, .remove, .next, .add ⟨1⟩, .remove, .add ⟨3⟩, .next, .next]

theorem run_walk_stroll :
    (Arena.machine String).AdmitsRun {} shelves ∧
    (Trail.machine String).AdmitsRun (start ((Arena.machine String).run {} shelves).arena ⟨0⟩)
      stroll ∧
    yielded ((Trail.machine String).run (start ((Arena.machine String).run {} shelves).arena ⟨0⟩)
      stroll).past = [⟨0⟩, ⟨1⟩, ⟨2⟩, ⟨1⟩] ∧
    ∃ w, Walk.remove.run ((Trail.machine String).run
      (start ((Arena.machine String).run {} shelves).arena ⟨0⟩) stroll).walk = .ok ⟨1⟩ w := by
  have hops : (Arena.machine String).AdmitsRun {} shelves := by decide
  have hmoves : (Trail.machine String).AdmitsRun
      (start ((Arena.machine String).run {} shelves).arena ⟨0⟩) stroll := by decide
  exact ⟨hops, hmoves, by decide,
    ((run_walk shelves hops ⟨0⟩ (by decide) stroll hmoves).2.2.1 ⟨1⟩).2
      ⟨[.passed none], _, rfl, by decide⟩⟩

end Trail
end DalvikLinkage.Body
