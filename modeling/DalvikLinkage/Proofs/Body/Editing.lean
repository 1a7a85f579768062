import DalvikLinkage.Proofs.Body.Positions
import DalvikLinkage.Proofs.Machine

/-!
# Editing a method body

An editor is a method body with the cursor that was opened on it last, if it is still in use: while
a cursor is, the body is changed through the cursor only, and any other edit puts the cursor away.
An edit answers with what the operation returns, or is refused.

Results:
* `inv_step`: an edit keeps the body well placed and the cursor at one of its positions;
* `run_wellPlaced`: in every body that edits lead to, each position has its own right index, every
  item that is somewhere is at a position, and so it has an address.
-/
namespace DalvikLinkage.Body

open Arena MethodBody

inductive Edit
  | push (x : Instruction)
  | insert (k : Nat) (x : Instruction)
  | replace (k : Nat) (x : Instruction)
  | remove (k : Nat)
  | addLabel (k : Nat) (name : String)
  | addDebugItem (k : Nat) (item : DebugItem)
  | moveItem (i : ItemId) (k : Nat)
  | addTryBlock (block : TryBlock)
  | openCursor (k : Nat)
  | advance
  | removeCurrent
  | addHere (i : ItemId)

/-- What an edit gives back. -/
inductive Answer
  | done
  | instruction (x : Instruction)
  | item (i : ItemId)
  /-- A cursor came past an item, or had none to come to. -/
  | passed (i : Option ItemId)
  deriving DecidableEq

structure Editor where
  body : MethodBody
  cursor : Option Cursor := none

namespace Editor

/-- The items that are named exist, and a cursor is there if one is used. -/
def Admits (e : Editor) : Edit → Prop
  | .moveItem i _ => e.body.arena.HasItem i
  | .advance | .removeCurrent => e.cursor.isSome
  | .addHere i => e.cursor.isSome ∧ e.body.arena.HasItem i
  | _ => True

instance (e : Editor) : (x : Edit) → Decidable (e.Admits x)
  | .moveItem i _ => inferInstanceAs (Decidable (e.body.arena.HasItem i))
  | .advance | .removeCurrent => inferInstanceAs (Decidable (e.cursor.isSome = true))
  | .addHere i => inferInstanceAs (Decidable (e.cursor.isSome = true ∧ e.body.arena.HasItem i))
  | .push _ | .insert _ _ | .replace _ _ | .remove _ | .addLabel _ _ | .addDebugItem _ _
  | .addTryBlock _ | .openCursor _ => isTrue trivial

/-- The outcome of an edit of the body, given what the operation returns: a refused one changes
nothing. -/
def edited {β : Type} (e : Editor) (f : β → Answer × MethodBody) :
    Except EditError β → Except EditError Answer × Editor
  | .error err => (.error err, ⟨e.body, none⟩)
  | .ok r => (.ok (f r).1, ⟨(f r).2, none⟩)

/-- The outcome of an edit and the editor after it. -/
def apply (e : Editor) : Edit → Except EditError Answer × Editor
  | .push x => (.ok .done, ⟨e.body.push x, none⟩)
  | .insert k x => e.edited (fun b => (.done, b)) (e.body.insert k x)
  | .replace k x => e.edited (fun r => (.instruction r.1, r.2)) (e.body.replace k x)
  | .remove k => e.edited (fun r => (.instruction r.1, r.2)) (e.body.remove k)
  | .addLabel k name => e.edited (fun r => (.item r.1, r.2)) (e.body.addLabel k name)
  | .addDebugItem k item => e.edited (fun r => (.item r.1, r.2)) (e.body.addDebugItem k item)
  | .moveItem i k => e.edited (fun b => (.done, b)) (e.body.moveItem i k)
  | .addTryBlock block => (.ok .done, ⟨e.body.addTryBlock block, none⟩)
  | .openCursor k =>
    match e.body.cursor k with
    | .error err => (.error err, ⟨e.body, none⟩)
    | .ok c => (.ok .done, ⟨e.body, some c⟩)
  | .advance =>
    match e.cursor with
    | none => (.error .noCurrentItem, e)
    | some c =>
      (.ok (.passed (c.advance e.body.arena).1), ⟨e.body, some (c.advance e.body.arena).2⟩)
  | .removeCurrent =>
    match e.cursor with
    | none => (.error .noCurrentItem, e)
    | some c =>
      ((c.remove e.body.arena).1.map .item,
        ⟨{ e.body with arena := (c.remove e.body.arena).2.2 }, some (c.remove e.body.arena).2.1⟩)
  | .addHere i =>
    match e.cursor with
    | none => (.error .noCurrentItem, e)
    | some c =>
      match c.add e.body.arena i with
      | .error err => (.error err, e)
      | .ok (c, a) => (.ok .done, ⟨{ e.body with arena := a }, some c⟩)

def step (e : Editor) (x : Edit) : Editor :=
  (e.apply x).2

def machine : Machine Editor Edit :=
  ⟨Admits, step⟩

instance (e : Editor) (x : Edit) : Decidable (machine.Admits e x) :=
  inferInstanceAs (Decidable (e.Admits x))

/-- An editor of a body with these instructions; a body without instructions is the empty one. -/
def ofInstructions (registerCount : UInt16) (xs : List Instruction) : Editor :=
  ⟨MethodBody.ofInstructions registerCount xs, none⟩

/-- A cursor of a body: it stands at a position and not behind the end of the items there, and its
current item is the one it came past last. -/
structure CursorAt (b : MethodBody) (c : Cursor) : Prop where
  location : c.location ∈ b.positions
  next_le : c.next ≤ (b.arena.itemsAt c.location).length
  last_eq : ∀ p, c.last = some p → p + 1 = c.next

structure Inv (e : Editor) : Prop where
  wellPlaced : e.body.WellPlaced
  cursor : ∀ c, e.cursor = some c → CursorAt e.body c

/-! ## One edit -/

variable {e : Editor} {c : Cursor} {k : Nat} {i : ItemId}

theorem inv_of_wellPlaced {b : MethodBody} (h : b.WellPlaced) : Inv ⟨b, none⟩ :=
  ⟨h, fun _ hc => nomatch hc⟩

theorem inv_edited {β : Type} {f : β → Answer × MethodBody} {r : Except EditError β} (h : e.Inv)
    (hr : ∀ x, r = .ok x → (f x).2.WellPlaced) : (e.edited f r).2.Inv := by
  cases r with
  | error err => exact inv_of_wellPlaced h.wellPlaced
  | ok x => exact inv_of_wellPlaced (hr x rfl)

theorem inv_openCursor (h : e.Inv) (k : Nat) : (e.step (.openCursor k)).Inv := by
  simp only [step, apply, MethodBody.cursor]
  rcases h.wellPlaced.location_cases k with ⟨-, he⟩ | ⟨l, -, hl, he⟩ <;> rw [he]
  · exact inv_of_wellPlaced h.wellPlaced
  · refine ⟨h.wellPlaced, fun c hc => ?_⟩
    cases hc
    exact ⟨List.mem_of_getElem? hl, Nat.zero_le _, fun p hp => nomatch hp⟩

theorem inv_advance (h : e.Inv) : (e.step .advance).Inv := by
  simp only [step, apply]
  cases hc : e.cursor with
  | none => exact h
  | some c =>
    have hat := h.cursor c hc
    refine ⟨h.wellPlaced, fun d hd => ?_⟩
    cases hd
    rcases c.advance_cases e.body.arena with ⟨-, he⟩ | ⟨i, hi, he⟩ <;> rw [he]
    · exact hat
    · exact ⟨hat.location, (List.getElem?_eq_some_iff.1 hi).1, fun p hp => by cases hp; rfl⟩

theorem inv_removeCurrent (h : e.Inv) : (e.step .removeCurrent).Inv := by
  simp only [step, apply]
  cases hc : e.cursor with
  | none => exact h
  | some c =>
    have hat := h.cursor c hc
    rcases c.remove_cases e.body.arena with ⟨-, he⟩ | ⟨p, i, hp, hi, he⟩ <;> simp only [he]
    · refine ⟨h.wellPlaced, fun d hd => ?_⟩
      cases hd
      exact ⟨hat.location, hat.next_le, fun p hp => nomatch hp⟩
    · have ht := Cursor.remove_takes h.wellPlaced.consistent hi
      refine ⟨h.wellPlaced.takes ht, fun d hd => ?_⟩
      cases hd
      refine ⟨hat.location, ?_, fun p hp => nomatch hp⟩
      have hlen := List.length_erase_of_mem (List.mem_of_getElem? hi)
      have hlast := hat.last_eq p hp
      have hle := hat.next_le
      dsimp only
      rw [ht.itemsAt, hlen]
      omega

theorem inv_addHere (h : e.Inv) (hi : e.body.arena.HasItem i) : (e.step (.addHere i)).Inv := by
  simp only [step, apply]
  cases hc : e.cursor with
  | none => exact h
  | some c =>
    have hat := h.cursor c hc
    rcases c.add_cases e.body.arena i with ⟨err, -, he⟩ | ⟨a, ha, he⟩ <;> simp only [he]
    · exact h
    · have hp := attach_puts hi (h.wellPlaced.hasLocation hat.location) ha
      refine ⟨h.wellPlaced.puts (attach_eq_ok_iff.1 ha).1 hat.location hp, fun d hd => ?_⟩
      cases hd
      refine ⟨hat.location, ?_, fun p hp => nomatch hp⟩
      have hle := hat.next_le
      dsimp only
      rw [hp.itemsAt, if_pos rfl, List.length_append]
      omega

/-- Every edit keeps the invariant, refused or not. -/
theorem inv_step (e : Editor) (x : Edit) (h : e.Inv) (hx : e.Admits x) : (e.step x).Inv := by
  have hw := h.wellPlaced
  cases x with
  | push x => exact inv_of_wellPlaced (wellPlaced_push hw x)
  | insert k x => exact inv_edited h fun _ hb => wellPlaced_insert hw hb
  | replace k x => exact inv_edited h fun _ hb => wellPlaced_replace hw hb
  | remove k => exact inv_edited h fun _ hb => wellPlaced_remove hw hb
  | addLabel k name => exact inv_edited h fun _ hb => wellPlaced_addItem hw hb
  | addDebugItem k item => exact inv_edited h fun _ hb => wellPlaced_addItem hw hb
  | moveItem i k => exact inv_edited h fun _ hb => wellPlaced_moveItem hw hx hb
  | addTryBlock block => exact inv_of_wellPlaced (wellPlaced_addTryBlock hw block)
  | openCursor k => exact inv_openCursor h k
  | advance => exact inv_advance h
  | removeCurrent => exact inv_removeCurrent h
  | addHere i => exact inv_addHere h hx.2

/-! ## Runs -/

theorem inv_run (registerCount : UInt16) (xs : List Instruction) (edits : List Edit)
    (h : machine.AdmitsRun (ofInstructions registerCount xs) edits) :
    (machine.run (ofInstructions registerCount xs) edits).Inv :=
  machine.run_inv inv_step edits _
    (inv_of_wellPlaced (wellPlaced_ofInstructions registerCount xs)) h

/-- **No item loses its place.** However a body was edited, it has one position more than
instructions, no position twice, and every position has its index; a location that is no position
holds no items, so an item has an index, and with it an address, exactly if it is somewhere. -/
theorem run_wellPlaced (registerCount : UInt16) (xs : List Instruction) (edits : List Edit)
    (h : machine.AdmitsRun (ofInstructions registerCount xs) edits) :
    let b := (machine.run (ofInstructions registerCount xs) edits).body
    b.positions.length = b.instructions.length + 1 ∧
    b.positions.Nodup ∧
    (∀ (k : Nat) l, b.positions[k]? = some l → b.arena.index? l = some k) ∧
    (∀ i l, b.arena.locationOf? i = some l → l ∈ b.positions) ∧
    (∀ l, l ∉ b.positions → b.arena.itemsAt l = []) ∧
    (∀ i, b.indexOf? i = none ↔ b.arena.locationOf? i = none) := by
  intro b
  have hw : b.WellPlaced := (inv_run registerCount xs edits h).wellPlaced
  exact ⟨hw.length_positions, hw.nodup, fun _ _ => hw.index?_eq, hw.placed,
    fun _ => hw.itemsAt_eq_nil, fun _ => hw.indexOf?_eq_none_iff⟩

/-- Labels on three instructions, edits ahead of, between and behind them, and a walk that removes
one and puts it back. -/
def tour : List Edit :=
  [.addLabel 0 ":start", .addLabel 1 ":loop", .addLabel 3 ":end", .insert 1 .nop, .remove 0,
    .remove 7, .push .nop, .remove 2, .moveItem ⟨2⟩ 0, .openCursor 0, .advance, .removeCurrent,
    .removeCurrent, .addHere ⟨0⟩, .addTryBlock ⟨⟨0⟩, ⟨1⟩, ⟨2⟩, none⟩, .remove 0]

theorem run_wellPlaced_tour :
    machine.AdmitsRun (ofInstructions 1 [.nop, .nop, .nop]) tour ∧
    (machine.run (ofInstructions 1 [.nop, .nop, .nop]) tour).body.positions = [⟨1⟩, ⟨3⟩, ⟨5⟩] ∧
    (machine.run (ofInstructions 1 [.nop, .nop, .nop]) tour).body.indexOf? ⟨1⟩ ≠ none :=
  have h : machine.AdmitsRun (ofInstructions 1 [.nop, .nop, .nop]) tour := by decide
  ⟨h, by decide, fun hn =>
    absurd (((run_wellPlaced 1 [.nop, .nop, .nop] tour h).2.2.2.2.2 ⟨1⟩).1 hn) (by decide)⟩

end Editor
end DalvikLinkage.Body
