import DalvikLinkage.Proofs.Body.Reverting

/-!
# Taking out two instructions

An instruction that is taken out leaves its items to the one behind it, which may be taken out as
well. If that one goes first, its own items are already further on when the others come after them;
if it goes last, it hands both on together. Either way they end up one after the other, so that the
order in which instructions are taken out does not show. The locations that the body is left with,
and the indices that were rewritten on the way, play no part in this.

Results:
* `foldSlot_foldSlot`: slots fold in either order;
* `Removes`: all that a removal does to what a body shows;
* `run_remove_remove`: two removals after any edits, in either order.
-/
namespace DalvikLinkage.Body

open MethodBody

/-! ## Lists -/

/-- Once the earlier entry is gone, the later one has the number before its own. -/
theorem eraseIdx_eraseIdx {β : Type} {xs : List β} {i j : Nat} (hij : i ≤ j) :
    (xs.eraseIdx (j + 1)).eraseIdx i = (xs.eraseIdx i).eraseIdx j := by
  induction i generalizing j xs with
  | zero => cases xs <;> simp
  | succ i ih =>
    obtain ⟨j, rfl⟩ := Nat.exists_eq_add_of_lt hij
    cases xs with
    | nil => rfl
    | cons x xs => simp only [List.eraseIdx_cons_succ, ih (Nat.le_add_right i j)]

/-- Three slots in a row that are folded into the last one join up from either side. -/
theorem foldSlot_foldSlot {slots : List (List ItemId)} {i j : Nat} (hij : i ≤ j) :
    foldSlot i (foldSlot (j + 1) slots) = foldSlot j (foldSlot i slots) := by
  induction i generalizing j slots with
  | zero =>
    match slots, j with
    | [], _ => simp [foldSlot]
    | [s], j => cases j <;> simp [foldSlot]
    | [s, t], 0 => rfl
    | s :: t :: u :: slots, 0 => simp only [foldSlot, List.append_assoc]
    | s :: t :: slots, j + 1 => rfl
  | succ i ih =>
    obtain ⟨j, rfl⟩ := Nat.exists_eq_add_of_lt hij
    cases slots with
    | nil => rfl
    | cons s slots => simp only [foldSlot, ih (Nat.le_add_right i j)]

/-! ## Removals -/

namespace MethodBody

variable {b b' b'' b₁ b₂ : MethodBody} {i j k : Nat} {x y : Instruction}

/-- `b'` shows what `b` shows without the instruction at `k`, and the items there have moved on. -/
structure Removes (b b' : MethodBody) (k : Nat) : Prop where
  instructions : b'.instructions = b.instructions.eraseIdx k
  slots : b'.slots = foldSlot k b.slots
  values : b'.arena.values = b.arena.values
  tryBlocks : b'.tryBlocks = b.tryBlocks

/-- An instruction can be taken out wherever there is one. -/
theorem exists_removes (h : b.WellPlaced) (hx : b.instructions[k]? = some x) :
    ∃ b', b.remove k = .ok (x, b') ∧ b'.WellPlaced ∧ Removes b b' k := by
  have hlt : k < b.length := (List.getElem?_eq_some_iff.1 hx).1
  rcases remove_cases h k with ⟨hge, -⟩ | ⟨old, pre, s, t, suf, -, hold, hp, hk, he⟩
  · omega
  · obtain rfl : old = x := Option.some.inj (hold.symm.trans hx)
    obtain ⟨-, hf⟩ := h.merge_folds hp
    refine ⟨_, he, wellPlaced_remove h he, rfl, slots_remove h hp hk _ _, ?_, rfl⟩
    simp only [values_reindex, hf.values]

/-- Bodies that lack the same two instructions show the same. -/
theorem Removes.alike (hij : i ≤ j) (hlater : Removes b b₁ (j + 1)) (hfirst : Removes b₁ b' i)
    (hfirst' : Removes b b₂ i) (hlater' : Removes b₂ b'' j) : Alike b' b'' where
  view := by
    have hinstructions : b''.instructions = b'.instructions := by
      rw [hfirst.instructions, hlater.instructions, hlater'.instructions, hfirst'.instructions,
        eraseIdx_eraseIdx hij]
    have hslots : b''.slots = b'.slots := by
      rw [hfirst.slots, hlater.slots, hlater'.slots, hfirst'.slots, foldSlot_foldSlot hij]
    have hvalues : b''.arena.values = b'.arena.values := by
      rw [hfirst.values, hlater.values, hlater'.values, hfirst'.values]
    simp only [Editor.view, hinstructions, hslots, hvalues, Option.map_none]
  tryBlocks := by
    rw [hfirst.tryBlocks, hlater.tryBlocks, hlater'.tryBlocks, hfirst'.tryBlocks]

/-- Both instructions come out, whichever goes first. -/
theorem exists_remove_remove (h : b.WellPlaced) (hij : i ≤ j)
    (hx : b.instructions[i]? = some x) (hy : b.instructions[j + 1]? = some y) :
    ∃ b₁ b' b₂ b'', (b.remove (j + 1) = .ok (y, b₁) ∧ b₁.remove i = .ok (x, b')) ∧
      (b.remove i = .ok (x, b₂) ∧ b₂.remove j = .ok (y, b'')) ∧
      b'.WellPlaced ∧ b''.WellPlaced ∧ Alike b' b'' := by
  obtain ⟨b₁, hlater, hw₁, hb₁⟩ := exists_removes h hy
  have hx₁ : b₁.instructions[i]? = some x := by
    rw [hb₁.instructions, List.getElem?_eraseIdx_of_lt (Nat.lt_succ_of_le hij), hx]
  obtain ⟨b', hfirst, hw', hb'⟩ := exists_removes hw₁ hx₁
  obtain ⟨b₂, hfirst', hw₂, hb₂⟩ := exists_removes h hx
  have hy₂ : b₂.instructions[j]? = some y := by
    rw [hb₂.instructions, List.getElem?_eraseIdx_of_ge hij, hy]
  obtain ⟨b'', hlater', hw'', hb''⟩ := exists_removes hw₂ hy₂
  exact ⟨b₁, b', b₂, b'', ⟨hlater, hfirst⟩, ⟨hfirst', hlater'⟩, hw', hw'',
    Removes.alike hij hb₁ hb' hb₂ hb''⟩

end MethodBody

namespace Editor

/-- **Removals commute.** However a body was edited, two of its instructions can be taken out in
either order. The same two come out, and the bodies that are left show the same: instructions, items
at each place and in order, the address of every item, the addresses of all positions, and the
ranges of the try blocks or what is wrong with them. The two may be neighbours. -/
theorem run_remove_remove (registerCount : UInt16) (xs : List Instruction) (edits : List Edit)
    (h : machine.AdmitsRun (ofInstructions registerCount xs) edits) :
    let b := (machine.run (ofInstructions registerCount xs) edits).body
    ∀ i j, i < j → j < b.length → ∃ x y b₁ b' b₂ b'',
      (b.instructions[i]? = some x ∧ b.instructions[j]? = some y) ∧
      (b.remove j = .ok (y, b₁) ∧ b₁.remove i = .ok (x, b')) ∧
      (b.remove i = .ok (x, b₂) ∧ b₂.remove (j - 1) = .ok (y, b'')) ∧
      b''.instructions = b'.instructions ∧
      b''.slots = b'.slots ∧
      b''.itemsInOrder = b'.itemsInOrder ∧
      (∀ i, b''.addressOf? i = b'.addressOf? i) ∧
      b''.addresses = b'.addresses ∧
      b''.tryRanges = b'.tryRanges := by
  intro b i j hij hj
  have hw : b.WellPlaced := (inv_run registerCount xs edits h).wellPlaced
  obtain ⟨x, hx⟩ : ∃ x, b.instructions[i]? = some x :=
    ⟨_, List.getElem?_eq_getElem (Nat.lt_trans hij hj)⟩
  obtain ⟨y, hy⟩ : ∃ y, b.instructions[j]? = some y := ⟨_, List.getElem?_eq_getElem hj⟩
  cases j with
  | zero => omega
  | succ j =>
    obtain ⟨b₁, b', b₂, b'', hbackward, hforward, hw', hw'', halike⟩ :=
      exists_remove_remove hw (Nat.le_of_lt_succ hij) hx hy
    exact ⟨x, y, b₁, b', b₂, b'', ⟨hx, hy⟩, hbackward, hforward, halike.instructions,
      halike.slots, halike.itemsInOrder hw' hw'', halike.addressOf? hw' hw'', halike.addresses,
      halike.tryRanges hw' hw''⟩

/-- An instruction that loads a small constant. -/
def constant : Instruction :=
  ⟨[0x0112], by simp⟩

/-- Labels on three instructions in a row and at the end, and a block from the second to the end. -/
def rowTour : List Edit :=
  [.addLabel 0 ":start", .addLabel 1 ":try", .addLabel 2 ":next", .addLabel 3 ":end",
    .addTryBlock ⟨⟨1⟩, ⟨3⟩, ⟨2⟩, none⟩]

/-- The first two instructions are neighbours, and the third one has labels of its own. -/
theorem run_remove_remove_row :
    let b := (machine.run (ofInstructions 1 [.nop, constant, .nop]) rowTour).body
    machine.AdmitsRun (ofInstructions 1 [.nop, constant, .nop]) rowTour ∧ 0 < 1 ∧ 1 < b.length ∧
    ∃ b₁ b' b₂ b'', b.remove 1 = .ok (constant, b₁) ∧ b₁.remove 0 = .ok (.nop, b') ∧
      b.remove 0 = .ok (.nop, b₂) ∧ b₂.remove 0 = .ok (constant, b'') ∧
      b''.slots = [[⟨0⟩, ⟨1⟩, ⟨2⟩], [⟨3⟩]] ∧ b''.tryRanges = .ok [⟨0, 1, 0, none⟩] := by
  intro b
  have h : machine.AdmitsRun (ofInstructions 1 [.nop, constant, .nop]) rowTour := by decide
  have hj : 1 < b.length := by decide
  obtain ⟨x, y, b₁, b', b₂, b'', ⟨hx, hy⟩, ⟨hlater, hfirst⟩, ⟨hfirst', hlater'⟩, -, hslots, -, -, -,
    hranges⟩ := run_remove_remove 1 [.nop, constant, .nop] rowTour h 0 1 Nat.zero_lt_one hj
  obtain rfl : .nop = x := Option.some.inj hx
  obtain rfl : constant = y := Option.some.inj hy
  have hshown : ((b.remove 1).bind fun r => r.2.remove 0).map
      (fun r => (r.2.slots, r.2.tryRanges)) =
        .ok ([[⟨0⟩, ⟨1⟩, ⟨2⟩], [⟨3⟩]], .ok [⟨0, 1, 0, none⟩]) := by decide
  rw [hlater] at hshown
  simp only [Except.bind, hfirst, Except.map, Except.ok.injEq, Prod.mk.injEq] at hshown
  exact ⟨h, Nat.zero_lt_one, hj, b₁, b', b₂, b'', hlater, hfirst, hfirst', hlater',
    hslots.trans hshown.1, hranges.trans hshown.2⟩

end Editor
end DalvikLinkage.Body
