import DalvikLinkage.Proofs.Body.SlotView
import DalvikLinkage.Proofs.Outcome
import Mathlib.Order.Interval.Set.Basic
import Mathlib.Order.Monotone.Basic

/-!
# Try ranges

A try block names three labels, and its range is given by the addresses at which these stand. Edits
of the instructions move the labels from position to position by three rules: what is appended moves
none, what is inserted moves those at its place and behind, and what is removed moves those behind
it, so that its own labels and those of its successor come together. `Edit.moved` is these rules,
and `moves_step` says that the edits follow them. Addresses grow with positions, so that a range is
kept as long as its start stays before its end. No address is beyond the total size of the code.

Results:
* `tryRange_eq_ok_iff`: a block has a range if and only if its labels stand at positions, the start
  before the end;
* `Resolves.covers_iff`: the range covers the instructions between these positions;
* `exists_tryRanges_step_iff`: an edit of the instructions keeps all ranges if and only if it keeps
  every start before its end;
* `run_tryRanges`: this along every run of edits, with what it says of each edit.
-/
namespace DalvikLinkage.Body

namespace MethodBody

/-- The total size of the instructions from `p` on that are before `q`. -/
def units (b : MethodBody) (p q : Nat) : Nat :=
  (((b.instructions.take q).drop p).map Instruction.size).sum

/-- The item is among those at position `k`. -/
def IsAt (b : MethodBody) (i : ItemId) (k : Nat) : Prop :=
  ∃ items, b.slots[k]? = some items ∧ i ∈ items

/-- The labels of the block stand at positions `p`, `q` and `c`, the start before the end. -/
structure Spans (b : MethodBody) (block : TryBlock) (p q c : Nat) : Prop where
  isAt_start : b.IsAt block.start p
  isAt_stop : b.IsAt block.stop q
  isAt_handler : b.IsAt block.handler c
  lt : p < q

/-- The range of the block is given by the addresses of the positions `p`, `q` and `c` at which its
labels stand. -/
structure Resolves (b : MethodBody) (block : TryBlock) (r : TryRange) (p q c : Nat) : Prop
    extends Spans b block p q c where
  start : b.addresses[p]? = some r.start
  stop : b.addresses[q]? = some (r.start + r.length)
  handler : b.addresses[c]? = some r.handler
  exceptionType : r.exceptionType = block.exceptionType

/-- All code units of instruction `j` are in the range. -/
def Covers (b : MethodBody) (r : TryRange) (j : Nat) : Prop :=
  ∃ x a, b.instructions[j]? = some x ∧ b.addresses[j]? = some a ∧
    r.start ≤ a ∧ a + x.size ≤ r.start + r.length

variable {b b' : MethodBody} {block : TryBlock} {r : TryRange} {ranges : List TryRange}
  {i : ItemId} {j k p q c : Nat} {a : Nat} {x : Instruction} {f : Nat → Nat}

/-! ## Sizes and addresses -/

theorem units_add (b : MethodBody) (h : p ≤ q) : b.units 0 p + b.units p q = b.units 0 q := by
  have hsplit := List.take_append_drop p (b.instructions.take q)
  rw [List.take_take, Nat.min_eq_left h] at hsplit
  unfold units
  rw [List.drop_zero, List.drop_zero, ← List.sum_append, ← List.map_append, hsplit]

theorem units_succ (h : b.instructions[j]? = some x) :
    b.units 0 (j + 1) = b.units 0 j + x.size := by
  simp [units, List.take_add_one, h]

theorem strictMonoOn_units (b : MethodBody) : StrictMonoOn (b.units 0) (Set.Iic b.length) := by
  intro p _ q hq hpq
  have hlt : p < b.instructions.length := Nat.lt_of_lt_of_le hpq hq
  have hsucc := units_succ (List.getElem?_eq_getElem hlt)
  have hpos := b.instructions[p].size_pos
  have hadd := units_add b (show p + 1 ≤ q from hpq)
  omega

theorem units_pos (b : MethodBody) (hpq : p < q) (hq : q ≤ b.length) : 0 < b.units p q := by
  have hmono := strictMonoOn_units b (Nat.le_of_lt (Nat.lt_of_lt_of_le hpq hq)) hq hpq
  have hadd := units_add b (Nat.le_of_lt hpq)
  omega

/-- Every position up to the end has an address, the total size of the instructions before it. -/
theorem getElem?_addresses_eq_some_iff :
    b.addresses[k]? = some a ↔ k ≤ b.length ∧ b.units 0 k = a := by
  by_cases hk : k ≤ b.instructions.length
  · have haddress := Editor.getElem?_addressesFrom 0 b.instructions hk
    rw [addresses, haddress]
    simp [units, length, hk]
  · have hnone : (addressesFrom 0 b.instructions)[k]? = none := by
      rw [List.getElem?_eq_none_iff, Editor.length_addressesFrom]
      omega
    rw [addresses, hnone]
    simp [length, hk]

theorem le_units_length (h : b.addresses[k]? = some a) : a ≤ b.units 0 b.length := by
  obtain ⟨hk, rfl⟩ := getElem?_addresses_eq_some_iff.1 h
  have hadd := units_add b hk
  omega

/-! ## Positions of items -/

theorem isAt_iff (h : b.WellPlaced) : b.IsAt i k ↔ b.indexOf? i = some k := by
  have hget : ∀ {l}, b.positions[k]? = some l → b.slots[k]? = some (b.arena.itemsAt l) := by
    intro l hl
    rw [slots, List.getElem?_map, hl]
    rfl
  constructor
  · intro hat
    obtain ⟨items, hs, hi⟩ := hat
    rw [slots, List.getElem?_map, Option.map_eq_some_iff] at hs
    obtain ⟨l, hl, rfl⟩ := hs
    exact h.indexOf?_eq ((h.consistent.locationOf?_iff i l).2 hi) hl
  · intro hk
    have hne : b.arena.locationOf? i ≠ none := fun hn => by
      rw [h.indexOf?_eq_none_iff.2 hn] at hk
      cases hk
    obtain ⟨l, hl⟩ := Option.ne_none_iff_exists'.1 hne
    obtain ⟨j, hj⟩ := List.getElem?_of_mem (h.placed i l hl)
    obtain rfl : j = k := Option.some.inj ((h.indexOf?_eq hl hj).symm.trans hk)
    exact ⟨_, hget hj, (h.consistent.locationOf?_iff i l).1 hl⟩

theorem IsAt.unique (hj : b.IsAt i j) (h : b.WellPlaced) (hk : b.IsAt i k) : j = k :=
  Option.some.inj (((isAt_iff h).1 hj).symm.trans ((isAt_iff h).1 hk))

theorem IsAt.le_length (hk : b.IsAt i k) (h : b.WellPlaced) : k ≤ b.length := by
  obtain ⟨items, hs, -⟩ := hk
  have hlt := (List.getElem?_eq_some_iff.1 hs).1
  rw [slots, List.length_map, h.length_positions] at hlt
  exact Nat.le_of_lt_succ hlt

theorem addressOf?_eq_some_iff (h : b.WellPlaced) :
    b.addressOf? i = some a ↔ ∃ k, b.IsAt i k ∧ b.addresses[k]? = some a := by
  unfold addressOf?
  simp only [bind, Option.bind_eq_some_iff, isAt_iff h]

/-! ## Ranges -/

theorem labelAddress_eq_ok_iff {role : LabelRole} :
    b.labelAddress role i = .ok a ↔ b.addressOf? i = some a := by
  unfold labelAddress
  cases b.addressOf? i <;> simp

/-- A block has a range exactly if its labels stand somewhere, the start before the end: addresses
are in the order of their positions. -/
theorem tryRange_eq_ok_iff (h : b.WellPlaced) :
    b.tryRange block = .ok r ↔ ∃ p q c, b.Resolves block r p q c := by
  have hmono := strictMonoOn_units b
  simp only [tryRange, except_bind_eq_ok_iff, labelAddress_eq_ok_iff, addressOf?_eq_some_iff h]
  constructor
  · intro hr
    obtain ⟨start, ⟨p, hp, hstart⟩, stop, ⟨q, hq, hstop⟩, handler, ⟨c, hc, hhandler⟩, hr⟩ := hr
    split at hr
    · cases hr
    · next hlt =>
      cases hr
      have hp' := getElem?_addresses_eq_some_iff.1 hstart
      have hq' := getElem?_addresses_eq_some_iff.1 hstop
      refine ⟨p, q, c, ⟨hp, hq, hc, ?_⟩, hstart, ?_, hhandler, rfl⟩
      · refine (hmono.lt_iff_lt hp'.1 hq'.1).1 ?_
        omega
      · rw [hstop, Nat.add_sub_cancel' (Nat.le_of_not_le hlt)]
  · intro hr
    obtain ⟨p, q, c, hr⟩ := hr
    have hp := getElem?_addresses_eq_some_iff.1 hr.start
    have hq := getElem?_addresses_eq_some_iff.1 hr.stop
    have hlt := (hmono.lt_iff_lt hp.1 hq.1).2 hr.lt
    refine ⟨_, ⟨p, hr.isAt_start, hr.start⟩, _, ⟨q, hr.isAt_stop, hr.stop⟩, _,
      ⟨c, hr.isAt_handler, hr.handler⟩, ?_⟩
    rw [if_neg (by omega), Nat.add_sub_cancel_left, ← hr.exceptionType]
    rfl

theorem tryRanges_eq_ok_iff (h : b.WellPlaced) :
    b.tryRanges = .ok ranges ↔
      List.Forall₂ (fun block r => ∃ p q c, b.Resolves block r p q c) b.tryBlocks ranges := by
  have hfst : b.tryBlocks = b.tryBlocks.zipIdx.map Prod.fst := (List.zipIdx_map_fst 0 _).symm
  rw [tryRanges, mapM_eq_ok_iff, hfst, List.forall₂_map_left_iff, ← hfst]
  simp only [except_mapError_eq_ok_iff, tryRange_eq_ok_iff h]

theorem Resolves.covers_iff (hr : b.Resolves block r p q c) : b.Covers r j ↔ p ≤ j ∧ j < q := by
  have hmono := strictMonoOn_units b
  obtain ⟨hp, hstart⟩ := getElem?_addresses_eq_some_iff.1 hr.start
  obtain ⟨hq, hstop⟩ := getElem?_addresses_eq_some_iff.1 hr.stop
  constructor
  · intro hcovers
    obtain ⟨x, a, hx, ha, hle, hend⟩ := hcovers
    obtain ⟨hj, rfl⟩ := getElem?_addresses_eq_some_iff.1 ha
    have hlt : j + 1 ≤ b.length := (List.getElem?_eq_some_iff.1 hx).1
    rw [← units_succ hx, ← hstop] at hend
    rw [← hstart] at hle
    exact ⟨(hmono.le_iff_le hp hj).1 hle, (hmono.le_iff_le hlt hq).1 hend⟩
  · intro ⟨hpj, hjq⟩
    have hlt : j < b.instructions.length := Nat.lt_of_lt_of_le hjq hq
    have hx := List.getElem?_eq_getElem hlt
    refine ⟨_, _, hx, getElem?_addresses_eq_some_iff.2 ⟨Nat.le_of_lt hlt, rfl⟩, ?_, ?_⟩
    · rw [← hstart]
      exact (hmono.le_iff_le hp (Nat.le_of_lt hlt)).2 hpj
    · rw [← units_succ hx, ← hstop]
      exact (hmono.le_iff_le hlt hq).2 hjq

theorem Resolves.length_eq (hr : b.Resolves block r p q c) : r.length = b.units p q := by
  obtain ⟨-, hstart⟩ := getElem?_addresses_eq_some_iff.1 hr.start
  obtain ⟨-, hstop⟩ := getElem?_addresses_eq_some_iff.1 hr.stop
  have hadd := units_add b (Nat.le_of_lt hr.lt)
  omega

theorem Resolves.length_pos (hr : b.Resolves block r p q c) : 1 ≤ r.length := by
  rw [hr.length_eq]
  exact units_pos b hr.lt (getElem?_addresses_eq_some_iff.1 hr.stop).1

theorem Spans.unique {p' q' c' : Nat} (hs : b.Spans block p q c) (h : b.WellPlaced)
    (hs' : b.Spans block p' q' c') : p = p' ∧ q = q' ∧ c = c' :=
  ⟨hs.isAt_start.unique h hs'.isAt_start, hs.isAt_stop.unique h hs'.isAt_stop,
    hs.isAt_handler.unique h hs'.isAt_handler⟩

theorem Spans.exists_resolves (hs : b.Spans block p q c) (h : b.WellPlaced) :
    ∃ r, b.Resolves block r p q c := by
  have hp := getElem?_addresses_eq_some_iff.2 ⟨hs.isAt_start.le_length h, rfl⟩
  have hq := getElem?_addresses_eq_some_iff.2 ⟨hs.isAt_stop.le_length h, rfl⟩
  have hc := getElem?_addresses_eq_some_iff.2 ⟨hs.isAt_handler.le_length h, rfl⟩
  rw [← units_add b (Nat.le_of_lt hs.lt)] at hq
  exact ⟨⟨_, _, _, block.exceptionType⟩, hs, hp, hq, hc, rfl⟩

theorem forall_mem_iff_of_forall₂ {β γ : Type} {R : β → γ → Prop} {P : β → Prop} {Q : γ → Prop}
    {xs : List β} {ys : List γ} (h : List.Forall₂ R xs ys) (hR : ∀ x y, R x y → (P x ↔ Q y)) :
    (∀ x ∈ xs, P x) ↔ ∀ y ∈ ys, Q y := by
  induction h with
  | nil => simp
  | cons hxy _ ih => rw [List.forall_mem_cons, List.forall_mem_cons, hR _ _ hxy, ih]

/-- All ranges are there if the labels of every block stand somewhere, start before end. -/
theorem exists_tryRanges_iff (h : b.WellPlaced) :
    (∃ ranges, b.tryRanges = .ok ranges) ↔
      ∀ block ∈ b.tryBlocks, ∃ p q c, b.Spans block p q c := by
  simp only [tryRanges_eq_ok_iff h, exists_forall₂_iff]
  constructor
  · intro hall block hm
    obtain ⟨r, p, q, c, hr⟩ := hall block hm
    exact ⟨p, q, c, hr.toSpans⟩
  · intro hall block hm
    obtain ⟨p, q, c, hs⟩ := hall block hm
    obtain ⟨r, hr⟩ := hs.exists_resolves h
    exact ⟨r, p, q, c, hr⟩

/-! ## Moving labels -/

/-- The body has the same try blocks, and the items of position `p` stand at position `f p`. -/
structure Moves (b b' : MethodBody) (f : Nat → Nat) : Prop where
  tryBlocks : b'.tryBlocks = b.tryBlocks
  isAt : ∀ i p, b.IsAt i p → b'.IsAt i (f p)

namespace Moves

variable (hm : Moves b b' f)

include hm

theorem spans (hs : b.Spans block p q c) (hlt : f p < f q) : b'.Spans block (f p) (f q) (f c) :=
  ⟨hm.isAt _ p hs.isAt_start, hm.isAt _ q hs.isAt_stop, hm.isAt _ c hs.isAt_handler, hlt⟩

/-- A range that is still there is that of the moved labels. -/
theorem resolves {p' q' c' : Nat} (h' : b'.WellPlaced) (hs : b.Spans block p q c)
    (hr : b'.Resolves block r p' q' c') : b'.Resolves block r (f p) (f q) (f c) := by
  obtain rfl := (hm.isAt _ p hs.isAt_start).unique h' hr.isAt_start
  obtain rfl := (hm.isAt _ q hs.isAt_stop).unique h' hr.isAt_stop
  obtain rfl := (hm.isAt _ c hs.isAt_handler).unique h' hr.isAt_handler
  exact hr

theorem exists_tryRanges_iff (h : b.WellPlaced) (h' : b'.WellPlaced)
    (hok : ∃ ranges, b.tryRanges = .ok ranges) :
    (∃ ranges, b'.tryRanges = .ok ranges) ↔
      ∀ block ∈ b.tryBlocks, ∀ p q c, b.Spans block p q c → f p < f q := by
  rw [MethodBody.exists_tryRanges_iff h', hm.tryBlocks]
  rw [MethodBody.exists_tryRanges_iff h] at hok
  constructor
  · intro hall block hb p q c hs
    obtain ⟨p', q', c', hs'⟩ := hall block hb
    rw [(hm.isAt _ p hs.isAt_start).unique h' hs'.isAt_start,
      (hm.isAt _ q hs.isAt_stop).unique h' hs'.isAt_stop]
    exact hs'.lt
  · intro hall block hb
    obtain ⟨p, q, c, hs⟩ := hok block hb
    exact ⟨f p, f q, f c, hm.spans hs (hall block hb p q c hs)⟩

theorem forall₂_resolves (h' : b'.WellPlaced) (hok : b'.tryRanges = .ok ranges) :
    List.Forall₂ (fun block r => ∀ p q c, b.Spans block p q c →
      b'.Resolves block r (f p) (f q) (f c)) b.tryBlocks ranges := by
  have hall := (tryRanges_eq_ok_iff h').1 hok
  rw [hm.tryBlocks] at hall
  refine hall.imp fun block r hr p q c hs => ?_
  obtain ⟨p', q', c', hr⟩ := hr
  exact hm.resolves h' hs hr

end Moves

/-- Folding a slot into the next one takes no item along but those behind. -/
theorem mem_foldSlot {slots : List (List ItemId)} {items : List ItemId}
    (hk : k + 1 < slots.length) (hs : slots[p]? = some items) (hi : i ∈ items) :
    ∃ items', (foldSlot k slots)[if k < p then p - 1 else p]? = some items' ∧ i ∈ items' := by
  obtain ⟨pre, s, t, suf, rfl, rfl⟩ := exists_append_cons_cons slots hk
  rw [foldSlot_append]
  by_cases hlt : p < pre.length
  · rw [List.getElem?_append_left hlt] at hs
    rw [if_neg (Nat.lt_asymm hlt), List.getElem?_append_left hlt]
    exact ⟨items, hs, hi⟩
  · obtain ⟨d, rfl⟩ := Nat.exists_eq_add_of_le (Nat.le_of_not_lt hlt)
    rw [List.getElem?_append_right (Nat.le_add_right _ _), Nat.add_sub_cancel_left] at hs
    -- the slot itself, the one that it is put ahead of, and those behind
    match d with
    | 0 =>
      cases hs
      exact ⟨items ++ t, by simp, List.mem_append_left t hi⟩
    | 1 =>
      cases hs
      exact ⟨s ++ items, by simp, List.mem_append_right s hi⟩
    | d + 2 =>
      refine ⟨items, ?_, hi⟩
      rw [if_pos (by omega), List.getElem?_append_right (by omega)]
      rw [show pre.length + (d + 2) - 1 - pre.length = d + 1 by omega]
      exact hs

end MethodBody

/-! ## Edits of the instructions -/

namespace Edit

/-- The edit is one of the instructions. -/
def OnInstructions : Edit → Prop
  | .push _ | .insert _ _ | .replace _ _ | .remove _ => True
  | _ => False

/-- Where the items of position `p` stand after an edit of the instructions, of which there were
`n`. What is inserted behind the last instruction is appended. -/
def moved (n : Nat) : Edit → Nat → Nat
  | .insert k _, p => if k ≤ p ∧ k < n then p + 1 else p
  | .remove k, p => if k < p then p - 1 else p
  | _, p => p

variable {edit : Edit} {n k p q : Nat}

theorem moved_lt_moved (h : ∀ k, edit ≠ .remove k) (hpq : p < q) :
    edit.moved n p < edit.moved n q := by
  cases edit with
  | insert k x =>
    simp only [moved]
    split <;> split <;> omega
  | remove k => exact absurd rfl (h k)
  | _ => exact hpq

/-- A removal brings two positions together only if it is of the one instruction between them. -/
theorem moved_remove_lt_iff (hpq : p < q) :
    (Edit.remove k).moved n p < (Edit.remove k).moved n q ↔ ¬ (p = k ∧ q = k + 1) := by
  simp only [moved]
  split <;> split <;> omega

end Edit

namespace Editor

open MethodBody

variable {e : Editor} {block : TryBlock} {ranges : List TryRange} {k p q c : Nat}
  {x : Instruction}

theorem moves_push (e : Editor) (x : Instruction) :
    Moves e.body (e.step (.push x)).body ((Edit.push x).moved e.body.length) := by
  refine ⟨by simp only [step, apply, push_eq], fun i p hi => ?_⟩
  obtain ⟨items, hs, hi⟩ := hi
  refine ⟨items, ?_, hi⟩
  show (e.body.push x).slots[p]? = some items
  rw [slots_push, List.getElem?_append_left (List.getElem?_eq_some_iff.1 hs).1, hs]

theorem moves_replace (e : Editor) (k : Nat) (x : Instruction) :
    Moves e.body (e.step (.replace k x)).body ((Edit.replace k x).moved e.body.length) := by
  simp only [step, apply]
  rcases replace_cases e.body k x with ⟨-, he⟩ | ⟨old, -, -, he⟩ <;> rw [he]
  · exact ⟨rfl, fun _ _ hi => hi⟩
  · exact ⟨rfl, fun _ _ hi => hi⟩

theorem moves_insert (h : e.body.WellPlaced) (k : Nat) (x : Instruction) :
    Moves e.body (e.step (.insert k x)).body ((Edit.insert k x).moved e.body.length) := by
  simp only [step, apply]
  rcases insert_cases h k x with ⟨hk, he⟩ | ⟨hk, he⟩ | ⟨pre, suf, hk, hp, hpre, he⟩ <;> rw [he]
  · refine ⟨rfl, fun i p hi => ?_⟩
    have hp : (Edit.insert k x).moved e.body.length p = p := if_neg (by omega)
    rw [hp]
    exact hi
  · have hmoved : (Edit.insert k x).moved e.body.length = (Edit.push x).moved e.body.length := by
      funext p
      exact if_neg (by omega)
    rw [hmoved]
    exact moves_push e x
  · refine ⟨rfl, fun i p hi => ?_⟩
    obtain ⟨items, hs, hi⟩ := hi
    refine ⟨items, ?_, hi⟩
    show (slots { e.body with
      instructions := e.body.instructions.insertIdx k x
      positions := pre ++ (e.body.arena.newLocation k).1 :: suf
      arena := reindex (e.body.arena.newLocation k).2 (k + 1) suf })[_]? = some items
    rw [slots_insert hp hpre]
    by_cases hkp : k ≤ p
    · have hmoved : (Edit.insert k x).moved e.body.length p = p + 1 := if_pos ⟨hkp, hk⟩
      rw [hmoved, List.getElem?_insertIdx_of_gt (Nat.lt_succ_of_le hkp)]
      exact hs
    · have hmoved : (Edit.insert k x).moved e.body.length p = p := if_neg fun h => hkp h.1
      rw [hmoved, List.getElem?_insertIdx_of_lt (Nat.lt_of_not_le hkp)]
      exact hs

theorem moves_remove (h : e.body.WellPlaced) (k : Nat) :
    Moves e.body (e.step (.remove k)).body ((Edit.remove k).moved e.body.length) := by
  simp only [step, apply]
  rcases remove_cases h k with ⟨hk, he⟩ | ⟨old, pre, s, t, suf, hk, -, hp, hpre, he⟩ <;> rw [he]
  · refine ⟨rfl, fun i p hi => ?_⟩
    have hle := hi.le_length h
    have hmoved : (Edit.remove k).moved e.body.length p = p := if_neg (by omega)
    rw [hmoved]
    exact hi
  · refine ⟨rfl, fun i p hi => ?_⟩
    obtain ⟨items, hs, hi⟩ := hi
    have hlen : k + 1 < e.body.slots.length := by
      rw [slots, List.length_map, h.length_positions]
      omega
    obtain ⟨items', hs', hi'⟩ := mem_foldSlot hlen hs hi
    refine ⟨items', ?_, hi'⟩
    rw [← slots_remove h hp hpre k (e.body.instructions.eraseIdx k)] at hs'
    exact hs'

/-- Every edit of the instructions moves the items as it should, refused or not. -/
theorem moves_step (h : e.body.WellPlaced) {edit : Edit} (hx : edit.OnInstructions) :
    Moves e.body (e.step edit).body (edit.moved e.body.length) := by
  cases edit with
  | push x => exact moves_push e x
  | insert k x => exact moves_insert h k x
  | replace k x => exact moves_replace e k x
  | remove k => exact moves_remove h k
  | _ => exact hx.elim

theorem admits_of_onInstructions {edit : Edit} (hx : edit.OnInstructions) : e.Admits edit := by
  cases edit with
  | push _ | insert _ _ | replace _ _ | remove _ => trivial
  | _ => exact hx.elim

/-- An edit of the instructions keeps all ranges if and only if no start meets its end. -/
theorem exists_tryRanges_step_iff (h : e.Inv) {edit : Edit} (hx : edit.OnInstructions)
    (hok : ∃ ranges, e.body.tryRanges = .ok ranges) :
    (∃ ranges, (e.step edit).body.tryRanges = .ok ranges) ↔
      ∀ block ∈ e.body.tryBlocks, ∀ p q c, e.body.Spans block p q c →
        edit.moved e.body.length p < edit.moved e.body.length q := by
  have hstep := inv_step e edit h (admits_of_onInstructions hx)
  exact (moves_step h.wellPlaced hx).exists_tryRanges_iff h.wellPlaced hstep.wellPlaced hok

theorem exists_tryRanges_step (h : e.Inv) {edit : Edit} (hx : edit.OnInstructions)
    (hne : ∀ k, edit ≠ .remove k) (hok : ∃ ranges, e.body.tryRanges = .ok ranges) :
    ∃ ranges, (e.step edit).body.tryRanges = .ok ranges :=
  (exists_tryRanges_step_iff h hx hok).2 fun _ _ _ _ _ hs => Edit.moved_lt_moved hne hs.lt

/-- The range covers instruction `k` and no other if and only if its labels stand before and behind
it. -/
theorem covers_only_iff {b : MethodBody} {r : TryRange} (hr : b.Resolves block r p q c) :
    (∀ j, b.Covers r j ↔ j = k) ↔ p = k ∧ q = k + 1 := by
  have hlt := hr.lt
  simp only [hr.covers_iff]
  constructor
  · intro honly
    have hfirst := honly p
    have hlast := honly (q - 1)
    omega
  · intro hpq j
    omega

theorem exists_tryRanges_remove_iff (h : e.Inv) (hok : e.body.tryRanges = .ok ranges) (k : Nat) :
    (∃ ranges, (e.step (.remove k)).body.tryRanges = .ok ranges) ↔
      ∀ r ∈ ranges, ¬ ∀ j, e.body.Covers r j ↔ j = k := by
  have hw := h.wellPlaced
  have hx : (Edit.remove k).OnInstructions := trivial
  rw [exists_tryRanges_step_iff h hx ⟨ranges, hok⟩]
  refine forall_mem_iff_of_forall₂ ((tryRanges_eq_ok_iff hw).1 hok) fun block r hr => ?_
  obtain ⟨p, q, c, hr⟩ := hr
  rw [covers_only_iff hr, ← Edit.moved_remove_lt_iff hr.lt]
  constructor
  · intro hall
    exact hall p q c hr.toSpans
  · intro hlt p' q' c' hs
    obtain ⟨rfl, rfl, rfl⟩ := hr.toSpans.unique hw hs
    exact hlt

theorem getElem?_step_insert (h : e.body.WellPlaced) (hk : k < e.body.length) :
    (e.step (.insert k x)).body.instructions[k]? = some x := by
  simp only [step, apply]
  rcases insert_cases h k x with ⟨hlt, -⟩ | ⟨heq, -⟩ | ⟨pre, suf, -, -, -, he⟩
  · omega
  · omega
  · rw [he]
    show (e.body.instructions.insertIdx k x)[k]? = some x
    rw [List.getElem?_insertIdx_self]
    exact if_pos (Nat.le_of_lt hk)

/-- What is inserted is in a range if and only if it comes behind the start and not behind the
end. -/
theorem covers_inserted_iff {b : MethodBody} {r : TryRange} {n : Nat} (hk : k < n)
    (hr : b.Resolves block r ((Edit.insert k x).moved n p) ((Edit.insert k x).moved n q) c) :
    b.Covers r k ↔ p < k ∧ k ≤ q := by
  rw [hr.covers_iff]
  simp only [Edit.moved]
  split <;> split <;> omega

/-! ## Runs -/

/-- **Ranges follow their instructions.** However a body was edited, if its try blocks have ranges
then each range is that of the positions `p`, `q` and `c` at which the labels of its block stand: it
starts at the address of `p`, ends at that of `q` and is handled at that of `c`, it is as long as
the instructions from `p` up to `q`, at least one code unit, and is within the code. After a
further push, replacement or insertion, refused or not, there are ranges again, and after a removal
exactly if no range covered just the instruction that was to be removed. The new ranges are those of
the moved positions; an instruction that is inserted at `k` is in a range exactly if
`p < k ∧ k ≤ q`. -/
theorem run_tryRanges (registerCount : UInt16) (xs : List Instruction) (edits : List Edit)
    (h : machine.AdmitsRun (ofInstructions registerCount xs) edits) (ranges : List TryRange)
    (hok : (machine.run (ofInstructions registerCount xs) edits).body.tryRanges = .ok ranges) :
    let e := machine.run (ofInstructions registerCount xs) edits
    List.Forall₂ (fun block r => ∃ p q c, e.body.Resolves block r p q c ∧
      r.length = e.body.units p q ∧ 1 ≤ r.length ∧
      r.start + r.length ≤ e.body.units 0 e.body.length ∧
      r.handler ≤ e.body.units 0 e.body.length) e.body.tryBlocks ranges ∧
    (∀ x, ∃ ranges', (e.step (.push x)).body.tryRanges = .ok ranges') ∧
    (∀ k x, ∃ ranges', (e.step (.replace k x)).body.tryRanges = .ok ranges') ∧
    (∀ k x, ∃ ranges', (e.step (.insert k x)).body.tryRanges = .ok ranges') ∧
    (∀ k, (∃ ranges', (e.step (.remove k)).body.tryRanges = .ok ranges') ↔
      ∀ r ∈ ranges, ¬ ∀ j, e.body.Covers r j ↔ j = k) ∧
    (∀ edit ranges', edit.OnInstructions → (e.step edit).body.tryRanges = .ok ranges' →
      List.Forall₂ (fun block r => ∀ p q c, e.body.Spans block p q c →
        (e.step edit).body.Resolves block r (edit.moved e.body.length p)
          (edit.moved e.body.length q) (edit.moved e.body.length c)) e.body.tryBlocks ranges') ∧
    ∀ k x, k < e.body.length → (e.step (.insert k x)).body.instructions[k]? = some x ∧
      ∀ ranges', (e.step (.insert k x)).body.tryRanges = .ok ranges' →
        List.Forall₂ (fun block r => ∀ p q c, e.body.Spans block p q c →
          ((e.step (.insert k x)).body.Covers r k ↔ p < k ∧ k ≤ q)) e.body.tryBlocks ranges' := by
  intro e
  have hi : e.Inv := inv_run registerCount xs edits h
  have hw := hi.wellPlaced
  have hex : ∃ ranges, e.body.tryRanges = .ok ranges := ⟨ranges, hok⟩
  have hfollow : ∀ edit ranges', edit.OnInstructions →
      (e.step edit).body.tryRanges = .ok ranges' →
      List.Forall₂ (fun block r => ∀ p q c, e.body.Spans block p q c →
        (e.step edit).body.Resolves block r (edit.moved e.body.length p)
          (edit.moved e.body.length q) (edit.moved e.body.length c))
        e.body.tryBlocks ranges' := by
    intro edit ranges' hx hok'
    have hstep := inv_step e edit hi (admits_of_onInstructions hx)
    exact (moves_step hw hx).forall₂_resolves hstep.wellPlaced hok'
  refine ⟨?_, fun x => ?_, fun k x => ?_, fun k x => ?_, fun k => ?_, hfollow, ?_⟩
  · refine ((tryRanges_eq_ok_iff hw).1 hok).imp fun block r hr => ?_
    obtain ⟨p, q, c, hr⟩ := hr
    exact ⟨p, q, c, hr, hr.length_eq, hr.length_pos, le_units_length hr.stop,
      le_units_length hr.handler⟩
  · exact exists_tryRanges_step hi trivial (fun _ h => nomatch h) hex
  · exact exists_tryRanges_step hi trivial (fun _ h => nomatch h) hex
  · exact exists_tryRanges_step hi trivial (fun _ h => nomatch h) hex
  · exact exists_tryRanges_remove_iff hi hok k
  · intro k x hk
    refine ⟨getElem?_step_insert hw hk, fun ranges' hok' => ?_⟩
    refine (hfollow (.insert k x) ranges' trivial hok').imp fun block r hr p q c hs => ?_
    exact covers_inserted_iff hk (hr p q c hs)

/-- Instructions of which the second takes two code units. -/
def mixed : List Instruction :=
  [.nop, ⟨[0x1a, 0], by simp⟩, .nop]

/-- Two blocks, the second for one instruction, and an insertion into the first. -/
def tryTour : List Edit :=
  [.addLabel 0 ":start", .addLabel 2 ":between", .addLabel 3 ":end",
    .addTryBlock ⟨⟨0⟩, ⟨1⟩, ⟨2⟩, some "Ljava/lang/Exception;"⟩,
    .addTryBlock ⟨⟨1⟩, ⟨2⟩, ⟨0⟩, none⟩, .insert 1 .nop]

theorem run_tryRanges_tour :
    machine.AdmitsRun (ofInstructions 1 mixed) tryTour ∧
    (machine.run (ofInstructions 1 mixed) tryTour).body.tryRanges =
      .ok [⟨0, 4, 5, some "Ljava/lang/Exception;"⟩, ⟨4, 1, 0, none⟩] ∧
    ((machine.run (ofInstructions 1 mixed) tryTour).step (.remove 3)).body.tryRanges =
      .error ⟨.emptyTryRange 4 4, [.tryBlock 1]⟩ ∧
    ∃ ranges, ((machine.run (ofInstructions 1 mixed) tryTour).step (.insert 2 .nop)).body.tryRanges =
      .ok ranges :=
  have h : machine.AdmitsRun (ofInstructions 1 mixed) tryTour := by decide
  have hok : (machine.run (ofInstructions 1 mixed) tryTour).body.tryRanges =
      .ok [⟨0, 4, 5, some "Ljava/lang/Exception;"⟩, ⟨4, 1, 0, none⟩] := by decide
  ⟨h, hok, by decide, (run_tryRanges 1 mixed tryTour h _ hok).2.2.2.1 2 .nop⟩

end Editor
end DalvikLinkage.Body
