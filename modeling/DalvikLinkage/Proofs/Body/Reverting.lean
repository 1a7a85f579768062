import DalvikLinkage.Proofs.Body.SlotView

/-!
# Taking back an insertion

An instruction that was put in can be taken out again, but not by the way it came: in the middle it
gets a location of its own, which is dropped again, and its slot has no items to fold into the next
one. At the end it takes over the location that was the end, with its items, and another location
becomes the end; taking it out drops the location that it took over, and the items move on to the
new one. So the body does not come back, but what it shows does: its slots are the same, and so is
all that is read off them.

Results:
* `SlotBody.apply_remove_insert`: slots are the same after the two edits;
* `Alike`: what two bodies have in common that show the same;
* `run_remove_insert`: this after any edits, with all that a body shows.
-/
namespace DalvikLinkage.Body

open MethodBody

/-! ## Slots -/

/-- A slot without items folds into the next one and leaves it as it is. -/
theorem foldSlot_insertIdx_nil {slots : List (List ItemId)} {k : Nat} (hk : k < slots.length) :
    foldSlot k (slots.insertIdx k []) = slots := by
  obtain ⟨pre, suf, rfl, rfl⟩ := exists_append_of_le slots (Nat.le_of_lt hk)
  cases suf with
  | nil => simp at hk
  | cons t suf => rw [insertIdx_append_length, foldSlot_append, List.nil_append]

/-- The last slot folds into a new one behind it. -/
theorem foldSlot_append_nil {slots : List (List ItemId)} {k : Nat} (hk : slots.length = k + 1) :
    foldSlot k (slots ++ [[]]) = slots := by
  have hne : slots ≠ [] := List.ne_nil_of_length_eq_add_one hk
  obtain ⟨pre, last, rfl⟩ : ∃ pre last, slots = pre ++ [last] :=
    ⟨_, _, (List.dropLast_append_getLast hne).symm⟩
  obtain rfl : pre.length = k := by simpa using hk
  rw [List.append_assoc, List.singleton_append, foldSlot_append, List.append_nil]

theorem SlotBody.apply_remove_insert {m : SlotBody} {k : Nat} (x : Instruction)
    (hlen : m.slots.length = m.instructions.length + 1) (hk : k ≤ m.instructions.length) :
    ∃ m', m.apply (.insert k x) = (some .done, m') ∧
      m'.apply (.remove k) = (some (.instruction x), { m with walk := none }) := by
  simp only [SlotBody.apply]
  rcases Nat.lt_or_eq_of_le hk with hlt | rfl
  · rw [if_pos hlt]
    refine ⟨_, rfl, ?_⟩
    simp only [List.getElem?_insertIdx_self, if_pos hk, List.eraseIdx_insertIdx_self,
      foldSlot_insertIdx_nil (Nat.lt_of_lt_of_eq (Nat.lt_succ_of_le hk) hlen.symm)]
  · rw [if_neg (Nat.lt_irrefl _), if_pos rfl]
    refine ⟨_, rfl, ?_⟩
    simp only [SlotBody.append, List.getElem?_concat_length, foldSlot_append_nil hlen]
    rw [eraseIdx_append_length m.instructions [] x, List.append_nil]

/-! ## What a body shows -/

namespace MethodBody

variable {b b' b'' : MethodBody} {k : Nat} {x : Instruction}

/-- The bodies have the same instructions, the same items in each slot and the same try blocks.
Their locations may be others. -/
structure Alike (b b' : MethodBody) : Prop where
  view : Editor.view ⟨b', none⟩ = Editor.view ⟨b, none⟩
  tryBlocks : b'.tryBlocks = b.tryBlocks

namespace Alike

variable (h : Alike b b')

include h

theorem instructions : b'.instructions = b.instructions :=
  congrArg SlotBody.instructions h.view

theorem slots : b'.slots = b.slots :=
  congrArg SlotBody.slots h.view

theorem addresses : b'.addresses = b.addresses :=
  congrArg (addressesFrom 0) h.instructions

theorem value? (i : ItemId) : b'.arena.value? i = b.arena.value? i := by
  have hvalues : b'.arena.values = b.arena.values := congrArg SlotBody.values h.view
  rw [Arena.value?_eq, Arena.value?_eq, hvalues]

theorem addressOf? (hb : b.WellPlaced) (hb' : b'.WellPlaced) (i : ItemId) :
    b'.addressOf? i = b.addressOf? i := by
  rw [Editor.addressOf?_eq (e := ⟨b', none⟩) hb', Editor.addressOf?_eq (e := ⟨b, none⟩) hb, h.view]

theorem itemsInOrder (hb : b.WellPlaced) (hb' : b'.WellPlaced) :
    b'.itemsInOrder = b.itemsInOrder := by
  rw [Editor.itemsInOrder_eq (e := ⟨b', none⟩) hb', Editor.itemsInOrder_eq (e := ⟨b, none⟩) hb,
    h.view]

theorem labelAddress (hb : b.WellPlaced) (hb' : b'.WellPlaced) (role : LabelRole) (i : ItemId) :
    b'.labelAddress role i = b.labelAddress role i := by
  unfold MethodBody.labelAddress
  rw [h.addressOf? hb hb', h.value?]

/-- The ranges, or the same fault. -/
theorem tryRanges (hb : b.WellPlaced) (hb' : b'.WellPlaced) : b'.tryRanges = b.tryRanges := by
  unfold MethodBody.tryRanges MethodBody.tryRange
  simp only [h.tryBlocks, h.labelAddress hb hb']

end Alike

theorem tryBlocks_insert (h : b.WellPlaced) (hb : b.insert k x = .ok b') :
    b'.tryBlocks = b.tryBlocks := by
  rcases insert_cases h k x with ⟨-, he⟩ | ⟨-, he⟩ | ⟨_, _, -, -, -, he⟩ <;>
    rw [he] at hb <;> cases hb
  · rw [push_eq]
  · rfl

theorem tryBlocks_remove {old : Instruction} (h : b.WellPlaced)
    (hb : b.remove k = .ok (old, b')) : b'.tryBlocks = b.tryBlocks := by
  rcases remove_cases h k with ⟨-, he⟩ | ⟨_, _, _, _, _, -, -, -, -, he⟩ <;>
    rw [he] at hb <;> cases hb
  rfl

/-- An instruction can be put in anywhere up to the end and taken out again, and then the body shows
what it showed before. -/
theorem exists_remove_insert (h : b.WellPlaced) (x : Instruction) (hk : k ≤ b.length) :
    ∃ b' b'', b.insert k x = .ok b' ∧ b'.remove k = .ok (x, b'') ∧ b''.WellPlaced ∧
      Alike b b'' := by
  have hlen : (Editor.view ⟨b, none⟩).slots.length = b.instructions.length + 1 := by
    simp only [Editor.view, MethodBody.slots, List.length_map, h.length_positions]
    rfl
  obtain ⟨m, hinsert, hremove⟩ := SlotBody.apply_remove_insert x hlen hk
  have hi : Editor.Agrees (Editor.apply ⟨b, none⟩ (.insert k x)) _ :=
    Editor.agrees_insert (Editor.inv_of_wellPlaced h) k x
  rw [hinsert] at hi
  simp only [Editor.apply] at hi
  cases hb' : b.insert k x with
  | error e =>
    rw [hb'] at hi
    cases hi.1
  | ok b' =>
    rw [hb'] at hi
    have hw' := wellPlaced_insert h hb'
    have hview : Editor.view ⟨b', none⟩ = m := hi.2
    have hr : Editor.Agrees (Editor.apply ⟨b', none⟩ (.remove k)) _ :=
      Editor.agrees_remove (Editor.inv_of_wellPlaced hw') k
    rw [hview, hremove] at hr
    simp only [Editor.apply] at hr
    cases hb'' : b'.remove k with
    | error e =>
      rw [hb''] at hr
      cases hr.1
    | ok r =>
      obtain ⟨old, b''⟩ := r
      rw [hb''] at hr
      cases hr.1
      refine ⟨b', b'', rfl, hb'', wellPlaced_remove hw' hb'', hr.2, ?_⟩
      rw [tryBlocks_remove hw' hb'', tryBlocks_insert h hb']

end MethodBody

namespace Editor

/-- **What is put in and taken out again leaves no trace.** However a body was edited, any
instruction can be put in at any place, the end included, and the instruction that is taken out
there is the same. The body then shows what it showed before: instructions, items at each place and
in order, the address of every item, the addresses of all positions, and the ranges of the try
blocks or what is wrong with them. -/
theorem run_remove_insert (registerCount : UInt16) (xs : List Instruction) (edits : List Edit)
    (h : machine.AdmitsRun (ofInstructions registerCount xs) edits) :
    let b := (machine.run (ofInstructions registerCount xs) edits).body
    ∀ k ≤ b.length, ∀ x, ∃ b' b'', b.insert k x = .ok b' ∧ b'.remove k = .ok (x, b'') ∧
      b''.instructions = b.instructions ∧
      b''.slots = b.slots ∧
      b''.itemsInOrder = b.itemsInOrder ∧
      (∀ i, b''.addressOf? i = b.addressOf? i) ∧
      b''.addresses = b.addresses ∧
      b''.tryRanges = b.tryRanges := by
  intro b k hk x
  have hw : b.WellPlaced := (inv_run registerCount xs edits h).wellPlaced
  obtain ⟨b', b'', hinsert, hremove, hw'', halike⟩ := exists_remove_insert hw x hk
  exact ⟨b', b'', hinsert, hremove, halike.instructions, halike.slots, halike.itemsInOrder hw hw'',
    halike.addressOf? hw hw'', halike.addresses, halike.tryRanges hw hw''⟩

/-- A block for the only instruction, with its end and its handler at the end of the body. -/
def endTour : List Edit :=
  [.addLabel 0 ":start", .addLabel 1 ":end", .addTryBlock ⟨⟨0⟩, ⟨1⟩, ⟨1⟩, none⟩]

/-- What is put in at the end takes over the location of the labels there. -/
theorem run_remove_insert_atEnd :
    let b := (machine.run (ofInstructions 1 [.nop]) endTour).body
    machine.AdmitsRun (ofInstructions 1 [.nop]) endTour ∧ 1 ≤ b.length ∧
    (∃ b', b.insert 1 .nop = .ok b' ∧ b'.positions = [⟨0⟩, ⟨1⟩, ⟨2⟩]) ∧
    ∃ b' b'', b.insert 1 .nop = .ok b' ∧ b'.remove 1 = .ok (.nop, b'') ∧
      b''.addressOf? ⟨1⟩ = some 1 ∧ b''.tryRanges = .ok [⟨0, 1, 1, none⟩] := by
  intro b
  have h : machine.AdmitsRun (ofInstructions 1 [.nop]) endTour := by decide
  have hk : 1 ≤ b.length := by decide
  obtain ⟨b', b'', hinsert, hremove, -, -, -, haddress, -, hranges⟩ :=
    run_remove_insert 1 [.nop] endTour h 1 hk .nop
  have hend : b.addressOf? ⟨1⟩ = some 1 := by decide
  have hrange : b.tryRanges = .ok [⟨0, 1, 1, none⟩] := by decide
  exact ⟨h, hk, ⟨_, rfl, rfl⟩, b', b'', hinsert, hremove, (haddress ⟨1⟩).trans hend,
    hranges.trans hrange⟩

end Editor
end DalvikLinkage.Body
