import DalvikLinkage.Proofs.Body.Editing
import DalvikLinkage.Proofs.Body.InPlace

/-!
# Refused edits

An edit that is given an instruction index does several things one after the other: it looks for the
location, makes an item or takes one away, attaches it. Taken in place, an edit that stopped between
two of these would leave a body that is half edited. The only edits that stop are those whose index
is out of range, and they stop first.

Results:
* `perform_eq`: edits in place come to the same as edits that give a new body;
* `refuses_apply`: which edits of an instruction index are refused, and that no other one is;
* `run_refusals`: what a refused edit in place leaves of a body that was edited in place.
-/
namespace DalvikLinkage.Body

namespace Edit

/-- The instruction index that an edit is given. -/
def index? : Edit → Option Nat
  | .insert k _ | .replace k _ | .remove k | .addLabel k _ | .addDebugItem k _ | .moveItem _ k
  | .openCursor k => some k
  | _ => none

/-- How many indices there are to choose from in a body of that length: those of the instructions
and, unless an instruction is replaced or removed, the end. -/
def choices (length : Nat) : Edit → Nat
  | .replace _ _ | .remove _ => length
  | _ => length + 1

end Edit

namespace Editor

open MethodBody
open InPlace (orRefused)

variable {α β : Type}

/-! ## Edits in place -/

/-- The outcome of an edit of the body. A cursor is put away, whether the edit stops or not. -/
def performed (e : Editor) (op : InPlace MethodBody α) (answer : α → Answer) :
    Except Stop Answer × Editor :=
  match op.run e.body with
  | .ok a b => (.ok (answer a), ⟨b, none⟩)
  | .error stop b => (.error stop, ⟨b, none⟩)

/-- The outcome of an edit with the cursor. -/
def walked (e : Editor) (op : InPlace (Walk Item) α) (answer : α → Answer) :
    Except Stop Answer × Editor :=
  match e.cursor with
  | none => (.error (.refused .noCurrentItem), e)
  | some cursor =>
    match op.run { cursor, arena := e.body.arena } with
    | .ok a w => (.ok (answer a), ⟨{ e.body with arena := w.arena }, some w.cursor⟩)
    | .error stop w => (.error stop, ⟨{ e.body with arena := w.arena }, some w.cursor⟩)

/-- The outcome of an edit in place and the editor after it. -/
def perform (e : Editor) : Edit → Except Stop Answer × Editor
  | .push x => e.performed (InPlace.push x) fun _ => .done
  | .insert k x => e.performed (InPlace.insert k x) fun _ => .done
  | .replace k x => e.performed (InPlace.replace k x) .instruction
  | .remove k => e.performed (InPlace.remove k) .instruction
  | .addLabel k name => e.performed (InPlace.addItem k (.label name)) .item
  | .addDebugItem k item => e.performed (InPlace.addItem k (.debug item)) .item
  | .moveItem i k => e.performed (InPlace.moveItem i k) fun _ => .done
  | .addTryBlock block => (.ok .done, ⟨e.body.addTryBlock block, none⟩)
  | .openCursor k =>
    match (InPlace.cursor k).run e.body with
    | .ok c b => (.ok .done, ⟨b, some c⟩)
    | .error stop b => (.error stop, ⟨b, none⟩)
  | .advance => e.walked Walk.next .passed
  | .removeCurrent => e.walked Walk.remove .item
  | .addHere i => e.walked (Walk.add i) fun _ => .done

def inPlace : Machine Editor Edit :=
  ⟨Admits, fun e x => (e.perform x).2⟩

instance (e : Editor) (x : Edit) : Decidable (inPlace.Admits e x) :=
  inferInstanceAs (Decidable (e.Admits x))

/-- An outcome as that of an edit in place. -/
def inPlaceOutcome (r : Except EditError Answer × Editor) : Except Stop Answer × Editor :=
  (r.1.mapError .refused, r.2)

/-! ## Both ways of editing -/

variable {e : Editor} {x : Edit} {k : Nat}

theorem performed_eq {op : InPlace MethodBody α} {answer : α → Answer} {f : β → α × MethodBody}
    {g : β → Answer × MethodBody} {r : Except EditError β}
    (hop : op.run e.body = orRefused e.body f r) (hg : ∀ x, g x = (answer (f x).1, (f x).2)) :
    e.performed op answer = inPlaceOutcome (e.edited g r) := by
  unfold performed
  rw [hop]
  cases r with
  | error err => rfl
  | ok x => simp only [edited, hg]; rfl

theorem perform_openCursor (e : Editor) (k : Nat) :
    e.perform (.openCursor k) = inPlaceOutcome (e.apply (.openCursor k)) := by
  simp only [perform, apply, InPlace.run_cursor]
  cases e.body.cursor k <;> rfl

theorem perform_advance (h : e.Inv) :
    e.perform .advance = inPlaceOutcome (e.apply .advance) := by
  simp only [perform, apply, walked]
  cases hc : e.cursor with
  | none => rfl
  | some c =>
    have hl := h.wellPlaced.hasLocation (h.cursor c hc).location
    simp only [Walk.run_next (w := ⟨c, e.body.arena⟩) hl]
    rfl

theorem perform_removeCurrent (h : e.Inv) :
    e.perform .removeCurrent = inPlaceOutcome (e.apply .removeCurrent) := by
  simp only [perform, apply, walked]
  cases hc : e.cursor with
  | none => rfl
  | some c =>
    have hl := h.wellPlaced.hasLocation (h.cursor c hc).location
    simp only [Walk.run_remove (w := ⟨c, e.body.arena⟩) h.wellPlaced.consistent hl]
    rcases c.remove_cases e.body.arena with ⟨-, he⟩ | ⟨p, i, -, -, he⟩ <;> simp only [he] <;> rfl

theorem perform_addHere {i : ItemId} (h : e.Inv) (hi : e.body.arena.HasItem i) :
    e.perform (.addHere i) = inPlaceOutcome (e.apply (.addHere i)) := by
  simp only [perform, apply, walked]
  cases hc : e.cursor with
  | none => rfl
  | some c =>
    have hl := h.wellPlaced.hasLocation (h.cursor c hc).location
    simp only [Walk.run_add (w := ⟨c, e.body.arena⟩) hi hl]
    cases c.add e.body.arena i with
    | error err =>
      have he : (⟨e.body, some c⟩ : Editor) = e := by rw [← hc]
      exact congrArg (Prod.mk _) he
    | ok r => rfl

/-- An edit in place comes to the same as one that gives a new body. -/
theorem perform_eq (h : e.Inv) (hx : e.Admits x) : e.perform x = inPlaceOutcome (e.apply x) := by
  have hw := h.wellPlaced
  cases x with
  | push x => rfl
  | insert k x => exact performed_eq (InPlace.run_insert hw k x) fun _ => rfl
  | replace k x => exact performed_eq (InPlace.run_replace e.body k x) fun _ => rfl
  | remove k => exact performed_eq (InPlace.run_remove hw k) fun _ => rfl
  | addLabel k name => exact performed_eq (InPlace.run_addItem hw k _) fun _ => rfl
  | addDebugItem k item => exact performed_eq (InPlace.run_addItem hw k _) fun _ => rfl
  | moveItem i k => exact performed_eq (InPlace.run_moveItem hw hx k) fun _ => rfl
  | addTryBlock block => rfl
  | openCursor k => exact perform_openCursor e k
  | advance => exact perform_advance h
  | removeCurrent => exact perform_removeCurrent h
  | addHere i => exact perform_addHere h hx.2

/-! ## Refusals -/

/-- An operation that is given index `k` in a body of that length is refused if `k` is none of the
`choices` first indices, and else it is not. -/
def Bounded (length choices k : Nat) (r : Except EditError β) : Prop :=
  (choices ≤ k ∧ r = .error (.indexOutOfRange k length)) ∨ (k < choices ∧ ∃ x, r = .ok x)

section Bounded

variable {b : MethodBody}

theorem bounded_insert (h : b.WellPlaced) (k : Nat) (x : Instruction) :
    Bounded b.length (b.length + 1) k (b.insert k x) := by
  rcases insert_cases h k x with ⟨hlt, he⟩ | ⟨rfl, he⟩ | ⟨_, _, hlt, -, -, he⟩
  · exact .inl ⟨hlt, he⟩
  · exact .inr ⟨Nat.lt_succ_self _, _, he⟩
  · exact .inr ⟨Nat.lt_succ_of_lt hlt, _, he⟩

theorem bounded_replace (b : MethodBody) (k : Nat) (x : Instruction) :
    Bounded b.length b.length k (b.replace k x) := by
  rcases replace_cases b k x with ⟨hge, he⟩ | ⟨_, hlt, -, he⟩
  · exact .inl ⟨hge, he⟩
  · exact .inr ⟨hlt, _, he⟩

theorem bounded_remove (h : b.WellPlaced) (k : Nat) :
    Bounded b.length b.length k (b.remove k) := by
  rcases remove_cases h k with ⟨hge, he⟩ | ⟨_, _, _, _, _, hlt, -, -, -, he⟩
  · exact .inl ⟨hge, he⟩
  · exact .inr ⟨hlt, _, he⟩

theorem bounded_addItem (h : b.WellPlaced) (k : Nat) (v : Item) :
    Bounded b.length (b.length + 1) k (b.addItem k v) := by
  rcases addItem_cases h k v with ⟨hlt, he⟩ | ⟨_, _, hle, -, -, he⟩
  · exact .inl ⟨hlt, he⟩
  · exact .inr ⟨Nat.lt_succ_of_le hle, _, he⟩

theorem bounded_moveItem {i : ItemId} (h : b.WellPlaced) (hi : b.arena.HasItem i) (k : Nat) :
    Bounded b.length (b.length + 1) k (b.moveItem i k) := by
  rcases moveItem_cases h hi k with ⟨hlt, he⟩ | ⟨_, _, hle, -, -, -, he⟩
  · exact .inl ⟨hlt, he⟩
  · exact .inr ⟨Nat.lt_succ_of_le hle, _, he⟩

theorem bounded_cursor (h : b.WellPlaced) (k : Nat) :
    Bounded b.length (b.length + 1) k (b.cursor k) := by
  unfold MethodBody.cursor
  rcases h.location_cases k with ⟨hlt, he⟩ | ⟨_, hle, -, he⟩ <;> rw [he]
  · exact .inl ⟨hlt, rfl⟩
  · exact .inr ⟨Nat.lt_succ_of_le hle, _, rfl⟩

end Bounded

/-- An edit whose index is out of range is refused and puts the cursor away; any other one goes
through. -/
def Refuses (e : Editor) (choices k : Nat) (r : Except EditError Answer × Editor) : Prop :=
  (choices ≤ k ∧ r = (.error (.indexOutOfRange k e.body.length), ⟨e.body, none⟩)) ∨
    (k < choices ∧ ∃ answer e', r = (.ok answer, e'))

theorem refuses_edited {choices : Nat} {f : β → Answer × MethodBody} {r : Except EditError β}
    (h : Bounded e.body.length choices k r) : e.Refuses choices k (e.edited f r) := by
  obtain ⟨hout, rfl⟩ | ⟨hin, x, rfl⟩ := h
  · exact .inl ⟨hout, rfl⟩
  · exact .inr ⟨hin, _, _, rfl⟩

theorem refuses_openCursor (h : e.body.WellPlaced) (k : Nat) :
    e.Refuses (e.body.length + 1) k (e.apply (.openCursor k)) := by
  simp only [apply]
  obtain ⟨hout, he⟩ | ⟨hin, c, he⟩ := bounded_cursor h k <;> rw [he]
  · exact .inl ⟨hout, rfl⟩
  · exact .inr ⟨hin, _, _, rfl⟩

theorem refuses_apply (h : e.Inv) (hx : e.Admits x) (hk : x.index? = some k) :
    e.Refuses (x.choices e.body.length) k (e.apply x) := by
  have hw := h.wellPlaced
  cases x with
  | push _ | addTryBlock _ | advance | removeCurrent | addHere _ => cases hk
  | insert j x => cases hk; exact refuses_edited (bounded_insert hw k x)
  | replace j x => cases hk; exact refuses_edited (bounded_replace e.body k x)
  | remove j => cases hk; exact refuses_edited (bounded_remove hw k)
  | addLabel j name => cases hk; exact refuses_edited (bounded_addItem hw k _)
  | addDebugItem j item => cases hk; exact refuses_edited (bounded_addItem hw k _)
  | moveItem i j => cases hk; exact refuses_edited (bounded_moveItem hw hx k)
  | openCursor j => cases hk; exact refuses_openCursor hw k

/-! ## Runs -/

theorem inv_inPlace_step (e : Editor) (x : Edit) (h : e.Inv) (hx : e.Admits x) :
    (inPlace.step e x).Inv := by
  change (e.perform x).2.Inv
  rw [perform_eq h hx]
  exact inv_step e x h hx

theorem inv_inPlace_run (registerCount : UInt16) (xs : List Instruction) (edits : List Edit)
    (h : inPlace.AdmitsRun (ofInstructions registerCount xs) edits) :
    (inPlace.run (ofInstructions registerCount xs) edits).Inv :=
  inPlace.run_inv inv_inPlace_step edits _
    (inv_of_wellPlaced (wellPlaced_ofInstructions registerCount xs)) h

/-- **A refused edit leaves no trace.** However a body was edited in place, an edit that is given an
instruction index stops only if the index is out of range. It says so, and what it leaves is the body
as it was: the instructions, their positions, the arena with all of its items, and the try blocks.
An edit whose index is in range goes through and comes to the same as one that gives a new body. -/
theorem run_refusals (registerCount : UInt16) (xs : List Instruction) (edits : List Edit)
    (h : inPlace.AdmitsRun (ofInstructions registerCount xs) edits) (x : Edit) (k : Nat)
    (hk : x.index? = some k)
    (hx : (inPlace.run (ofInstructions registerCount xs) edits).Admits x) :
    let e := inPlace.run (ofInstructions registerCount xs) edits
    (∀ stop e', e.perform x = (.error stop, e') ↔
      x.choices e.body.length ≤ k ∧ stop = .refused (.indexOutOfRange k e.body.length) ∧
        e' = ⟨e.body, none⟩) ∧
    e.perform x = inPlaceOutcome (e.apply x) := by
  intro e
  have hinv : e.Inv := inv_inPlace_run registerCount xs edits h
  have heq := perform_eq hinv hx
  refine ⟨fun stop e' => ?_, heq⟩
  rw [heq]
  rcases refuses_apply hinv hx hk with ⟨hout, he⟩ | ⟨hin, answer, after, he⟩ <;> rw [he]
  · constructor
    · intro hstop
      cases hstop
      exact ⟨hout, rfl, rfl⟩
    · rintro ⟨-, rfl, rfl⟩
      rfl
  · constructor
    · intro hstop
      cases hstop
    · rintro ⟨hout, -⟩
      exact absurd hin (Nat.not_lt.2 hout)

/-- Labels on two instructions and the end, one of them moved, with edits out of range in between. -/
def detours : List Edit :=
  [.addLabel 0 ":start", .addLabel 3 ":beyond", .addLabel 2 ":end", .remove 2, .moveItem ⟨0⟩ 1,
    .insert 1 .nop, .replace 3 .nop, .openCursor 2, .advance, .removeCurrent]

theorem run_refusals_detours :
    inPlace.AdmitsRun (ofInstructions 1 [.nop, .nop]) detours ∧
    ((inPlace.run (ofInstructions 1 [.nop, .nop]) detours).body.length = 3 ∧
      (inPlace.run (ofInstructions 1 [.nop, .nop]) detours).body.arena.locationOf? ⟨1⟩ =
        some ⟨2⟩) ∧
    (inPlace.run (ofInstructions 1 [.nop, .nop]) detours).perform (.moveItem ⟨1⟩ 4) =
      (.error (.refused (.indexOutOfRange 4 3)),
        ⟨(inPlace.run (ofInstructions 1 [.nop, .nop]) detours).body, none⟩) :=
  have h : inPlace.AdmitsRun (ofInstructions 1 [.nop, .nop]) detours := by decide
  ⟨h, by decide, ((run_refusals 1 [.nop, .nop] detours h (.moveItem ⟨1⟩ 4) 4 rfl (by decide)).1 _ _).2
    ⟨by decide, by decide, rfl⟩⟩

end Editor
end DalvikLinkage.Body
