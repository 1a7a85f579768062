import DalvikLinkage.Proofs.Body.Editing
import Mathlib.Algebra.GroupWithZero.Nat

/-!
# Slots

A method body without its machinery: the instructions, and a slot of items for each of them and for
the end. There are no locations, no cached indices and no back-references; the slot of an item is
the one that has it, and addresses are sums of sizes. A walk through a slot is the items that are
still to come.

This is what a method body is meant to be; `Proofs.Body.SlotView` says that it is.
-/
namespace DalvikLinkage.Body

/-- A walk through the items of a slot. -/
structure SlotWalk where
  slot : Nat
  ahead : List ItemId
  /-- The item that was come past last, if it can still be removed. -/
  current : Option ItemId

structure SlotBody where
  instructions : List Instruction
  /-- The items before each instruction, and those at the end. -/
  slots : List (List ItemId)
  /-- What each item is, by its number. -/
  values : List Item
  walk : Option SlotWalk

/-- Puts the items of slot `k` ahead of those of the next slot, in one slot. -/
def foldSlot : Nat → List (List ItemId) → List (List ItemId)
  | 0, s :: t :: slots => (s ++ t) :: slots
  | k + 1, s :: slots => s :: foldSlot k slots
  | _, slots => slots

theorem foldSlot_append (pre suf : List (List ItemId)) (s t : List ItemId) :
    foldSlot pre.length (pre ++ s :: t :: suf) = pre ++ (s ++ t) :: suf := by
  induction pre with
  | nil => rfl
  | cons x pre ih => rw [List.length_cons, List.cons_append, foldSlot, ih]; rfl

namespace SlotBody

/-- A body with these instructions and no items. -/
def ofInstructions (xs : List Instruction) : SlotBody :=
  ⟨xs, List.replicate (xs.length + 1) [], [], none⟩

/-! ## Edits -/

/-- A refused edit puts the walk away. -/
def refused (m : SlotBody) : Option Answer × SlotBody :=
  (none, { m with walk := none })

def append (m : SlotBody) (x : Instruction) : SlotBody :=
  { m with instructions := m.instructions ++ [x], slots := m.slots ++ [[]], walk := none }

def addItem (m : SlotBody) (k : Nat) (v : Item) : Option Answer × SlotBody :=
  if m.instructions.length < k then m.refused
  else
    let i : ItemId := ⟨m.values.length⟩
    (some (.item i),
      { m with slots := m.slots.modify k (· ++ [i]), values := m.values ++ [v], walk := none })

/-- What an edit gives back, nothing if it is refused, and the body after it. -/
def apply (m : SlotBody) : Edit → Option Answer × SlotBody
  | .push x => (some .done, m.append x)
  | .insert k x =>
    if k < m.instructions.length then
      (some .done, { m with
        instructions := m.instructions.insertIdx k x, slots := m.slots.insertIdx k [],
        walk := none })
    else if k = m.instructions.length then (some .done, m.append x)
    else m.refused
  | .replace k x =>
    match m.instructions[k]? with
    | none => m.refused
    | some old =>
      (some (.instruction old), { m with instructions := m.instructions.set k x, walk := none })
  | .remove k =>
    match m.instructions[k]? with
    | none => m.refused
    | some old =>
      (some (.instruction old), { m with
        instructions := m.instructions.eraseIdx k, slots := foldSlot k m.slots, walk := none })
  | .addLabel k name => m.addItem k (.label name)
  | .addDebugItem k item => m.addItem k (.debug item)
  | .moveItem i k =>
    if m.instructions.length < k then m.refused
    else
      (some .done,
        { m with slots := (m.slots.map (·.erase i)).modify k (· ++ [i]), walk := none })
  | .addTryBlock _ => (some .done, { m with walk := none })
  | .openCursor k =>
    match m.slots[k]? with
    | none => m.refused
    | some items => (some .done, { m with walk := some ⟨k, items, none⟩ })
  | .advance =>
    match m.walk with
    | none => (none, m)
    | some w =>
      match w.ahead with
      | [] => (some (.passed none), m)
      | i :: rest =>
        (some (.passed (some i)), { m with walk := some { w with ahead := rest, current := i } })
  | .removeCurrent =>
    match m.walk with
    | none => (none, m)
    | some w =>
      match w.current with
      | none => (none, m)
      | some i =>
        (some (.item i), { m with
          slots := m.slots.modify w.slot (·.erase i), walk := some { w with current := none } })
  | .addHere i =>
    match m.walk with
    | none => (none, m)
    | some w =>
      if i ∈ m.slots.flatten then (none, m)
      else
        (some .done, { m with
          slots := m.slots.modify w.slot (· ++ [i]),
          walk := some { w with ahead := w.ahead ++ [i], current := none } })

def machine : Machine SlotBody Edit :=
  ⟨fun _ _ => True, fun m x => (m.apply x).2⟩

/-! ## Addresses -/

/-- The total size of the instructions before slot `k`. -/
def address (m : SlotBody) (k : Nat) : Nat :=
  ((m.instructions.take k).map Instruction.size).sum

/-- The address of the slot that has the item. -/
def addressOf? (m : SlotBody) (i : ItemId) : Option Nat :=
  (m.slots.findIdx? (i ∈ ·)).map m.address

/-- The items of all slots in order, each with the address of its slot. -/
def itemsInOrder (m : SlotBody) : List (Nat × Item) :=
  m.slots.zipIdx.flatMap fun (items, k) =>
    items.filterMap fun i => (m.values[i.number]?).map (m.address k, ·)

end SlotBody
end DalvikLinkage.Body
