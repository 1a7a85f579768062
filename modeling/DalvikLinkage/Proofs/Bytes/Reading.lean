import DalvikLinkage.Bytes.Reader
import Mathlib.Data.List.Basic

/-!
# What readers find

A reader goes through the bytes step by step. What it is for is said without steps: where it
succeeds, which value it finds there and where it ends. `Reader.Gives` says this about one place,
and readers that are put together give what their parts give. `Reader.Decodes` is the view from the
other side: some bytes are read as a value wherever they stand.

Results:
* `word?_eq`, `half?_eq`: numbers of four and two bytes are there if the bytes reach so far;
* `PartAt.word?`, `PartAt.toList_slice`: what is read in a part of the bytes;
* `Gives.bind`, `Gives.forIndices`, `Gives.times`: what sequences and tables of readers give;
* `Decodes.bind`: bytes that follow each other are read one after the other.
-/
namespace DalvikLinkage

/-! ## Numbers at an offset -/

namespace Bytes

theorem toNat_toUInt8 {n : Nat} (h : n < 256) : n.toUInt8.toNat = n :=
  UInt8.toNat_ofNat_of_lt' h

/-- The number in the two bytes at `offset`, of bytes that reach so far. -/
def halfAt (bytes : Bytes) (offset : Nat) : UInt16 :=
  (bytes.half? offset).getD 0

/-- The number in the four bytes at `offset`, of bytes that reach so far. -/
def wordAt (bytes : Bytes) (offset : Nat) : UInt32 :=
  (bytes.word? offset).getD 0

theorem half?_eq (bytes : Bytes) (offset : Nat) :
    bytes.half? offset = if offset + 2 ≤ bytes.size then some (bytes.halfAt offset) else none := by
  unfold halfAt half?
  by_cases h : offset + 2 ≤ bytes.size
  · have h0 : offset < bytes.size := by omega
    have h1 : offset + 1 < bytes.size := by omega
    simp [h, h0, h1]
  · have h1 : bytes[offset + 1]? = none := Array.getElem?_eq_none (by omega)
    simp [h, h1]

theorem word?_eq (bytes : Bytes) (offset : Nat) :
    bytes.word? offset = if offset + 4 ≤ bytes.size then some (bytes.wordAt offset) else none := by
  unfold wordAt word?
  by_cases h : offset + 4 ≤ bytes.size
  · have h0 : offset < bytes.size := by omega
    have h1 : offset + 1 < bytes.size := by omega
    have h2 : offset + 2 < bytes.size := by omega
    have h3 : offset + 3 < bytes.size := by omega
    simp [h, h0, h1, h2, h3]
  · have h3 : bytes[offset + 3]? = none := Array.getElem?_eq_none (by omega)
    simp [h, h3]

theorem toList_slice (bytes : Bytes) (start stop : Nat) :
    (bytes.slice start stop).toList = (bytes.toList.drop start).take (stop - start) := by
  rw [slice, Array.toList_extract, List.extract_eq_take_drop]

/-- The bytes before the first zero byte. -/
def untilZero (bytes : List UInt8) : List UInt8 :=
  bytes.takeWhile (· != 0)

theorem drop_eq_cons {bytes : Bytes} {offset : Nat} (h : offset < bytes.size) :
    bytes.toList.drop offset = bytes[offset] :: bytes.toList.drop (offset + 1) := by
  rw [List.drop_eq_getElem_cons (by simpa using h), Array.getElem_toList]

theorem findNul?_eq (bytes : Bytes) (offset : Nat) :
    bytes.findNul? offset =
      if 0 ∈ bytes.toList.drop offset then
        some (offset + (untilZero (bytes.toList.drop offset)).length)
      else none := by
  fun_induction findNul? bytes offset with
  | case1 offset h hzero =>
    rw [drop_eq_cons h, hzero]
    simp [untilZero]
  | case2 offset h hzero ih =>
    have hlength : (untilZero (bytes[offset] :: bytes.toList.drop (offset + 1))).length =
        (untilZero (bytes.toList.drop (offset + 1))).length + 1 := by
      simp [untilZero, hzero]
    rw [ih, drop_eq_cons h, hlength]
    simp only [List.mem_cons, or_iff_right (Ne.symm hzero), Nat.add_assoc, Nat.add_comm 1]
  | case3 offset h =>
    have hnil : bytes.toList.drop offset = [] :=
      List.drop_eq_nil_of_le (by simpa using h)
    simp [hnil]

/-! ## Parts of bytes -/

/-- The bytes `part` stand in `bytes` at `offset`. -/
def PartAt (bytes : Bytes) (offset : Nat) (part : List UInt8) : Prop :=
  part <+: bytes.toList.drop offset

variable {bytes : Bytes} {offset : Nat} {part front back : List UInt8}

theorem partAt_toArray (bytes : List UInt8) : PartAt bytes.toArray 0 bytes :=
  List.prefix_rfl

theorem PartAt.left (h : PartAt bytes offset (front ++ back)) : PartAt bytes offset front :=
  (List.prefix_append front back).trans h

theorem PartAt.right (h : PartAt bytes offset (front ++ back)) :
    PartAt bytes (offset + front.length) back := by
  obtain ⟨rest, hrest⟩ := h
  refine ⟨rest, ?_⟩
  rw [← List.drop_drop, ← hrest, List.append_assoc, List.drop_left]

theorem PartAt.length_le (h : PartAt bytes offset part) : part.length ≤ bytes.size - offset := by
  simpa using List.IsPrefix.length_le h

theorem PartAt.getElem? (h : PartAt bytes offset part) {i : Nat} (hi : i < part.length) :
    bytes[offset + i]? = part[i]? := by
  obtain ⟨rest, hrest⟩ := h
  rw [← Array.getElem?_toList, ← List.getElem?_drop, ← hrest, List.getElem?_append_left hi]

theorem PartAt.toList_slice (h : PartAt bytes offset part) :
    (bytes.slice offset (offset + part.length)).toList = part := by
  rw [Bytes.toList_slice, Nat.add_sub_cancel_left]
  exact (List.prefix_iff_eq_take.1 h).symm

/-- A number is the same in a part and in the whole. -/
theorem PartAt.word? (h : PartAt bytes offset part) {i : Nat} (hi : i + 4 ≤ part.length) :
    bytes.word? (offset + i) = Bytes.word? part.toArray i := by
  have hbyte {k : Nat} (hk : k < part.length) : bytes[offset + k]? = part.toArray[k]? := by
    rw [h.getElem? hk, List.getElem?_toArray]
  simp (disch := omega) only [Bytes.word?, Nat.add_assoc, hbyte]

theorem word?_fourOf (n : UInt32) : word? (fourOf n).toArray 0 = some n := by
  have hn := n.toNat_lt
  apply congrArg some
  apply UInt32.toNat_inj.1
  simp [ofFour, fourOf]
  omega

theorem PartAt.word?_eq_some {n : UInt32} (h : PartAt bytes offset (fourOf n)) :
    bytes.word? offset = some n := by
  rw [← word?_fourOf n]
  exact h.word? (i := 0) (Nat.le_refl 4)

end Bytes

namespace Reader

variable {α β : Type} {bytes : Bytes} {offset middle after : Nat} {p q : Prop} {a : α} {b : β}

/-! ## Readers at a place -/

theorem bind_of_eq_ok {r : Reader α} {next : α → Reader β} (h : r bytes offset = .ok (a, middle)) :
    (r >>= next) bytes offset = next a bytes middle := by
  change andThen r next bytes offset = _
  rw [andThen, h]

theorem bind_of_eq_error {r : Reader α} {next : α → Reader β} {fault : Fault}
    (h : r bytes offset = .error fault) : (r >>= next) bytes offset = .error fault := by
  change andThen r next bytes offset = _
  rw [andThen, h]

/-- What a reader does at one place: it succeeds if and only if `ok` holds, with `value` and the
offset `after`. -/
def Gives (r : Reader α) (bytes : Bytes) (offset : Nat) (ok : Prop) (value : α) (after : Nat) :
    Prop :=
  ∀ x, r bytes offset = .ok x ↔ ok ∧ x = (value, after)

theorem Gives.congr {r : Reader α} {c : α} (h : r.Gives bytes offset p a after) (hpq : p ↔ q)
    (hvalue : p → a = c) : r.Gives bytes offset q c after := by
  intro x
  rw [h x, ← hpq]
  constructor
  · rintro ⟨hp, rfl⟩
    exact ⟨hp, by rw [hvalue hp]⟩
  · rintro ⟨hp, rfl⟩
    exact ⟨hp, by rw [hvalue hp]⟩

theorem Gives.eq_ok {r : Reader α} (h : r.Gives bytes offset p a after) (hp : p) :
    r bytes offset = .ok (a, after) :=
  (h _).2 ⟨hp, rfl⟩

theorem Gives.not_ok {r : Reader α} (h : r.Gives bytes offset p a after) (hp : ¬p) :
    ∃ fault, r bytes offset = .error fault := by
  cases hr : r bytes offset with
  | error fault => exact ⟨fault, rfl⟩
  | ok x => exact absurd ((h x).1 hr).1 hp

theorem gives_pure (a : α) : (pure a : Reader α).Gives bytes offset True a offset := by
  intro x
  change Except.ok (a, offset) = .ok x ↔ _
  simp [eq_comm]

theorem gives_fail (cause : Fault.Cause) : (fail cause).Gives bytes offset False a after := by
  intro x
  simp [fail]

/-- The second reader is asked only where the first one succeeds. -/
theorem Gives.bind {r : Reader α} {next : α → Reader β} (hr : r.Gives bytes offset p a middle)
    (hnext : p → (next a).Gives bytes middle q b after) :
    (r >>= next).Gives bytes offset (p ∧ q) b after := by
  intro x
  by_cases hp : p
  · rw [bind_of_eq_ok (hr.eq_ok hp)]
    simpa only [hp, true_and] using hnext hp x
  · obtain ⟨fault, hfault⟩ := hr.not_ok hp
    rw [bind_of_eq_error hfault]
    simp [hp]

theorem gives_u1_of_drop_eq_nil (h : bytes.toList.drop offset = []) :
    u1.Gives bytes offset False 0 offset := by
  intro x
  have hsize : bytes.size ≤ offset := by
    simpa using List.drop_eq_nil_iff.1 h
  rw [u1, Array.getElem?_eq_none hsize]
  simp

theorem gives_u1_of_drop_eq_cons {b : UInt8} {rest : List UInt8}
    (h : bytes.toList.drop offset = b :: rest) : u1.Gives bytes offset True b (offset + 1) := by
  intro x
  have hb : bytes[offset]? = some b := by
    rw [← Array.getElem?_toList, ← List.head?_drop, h, List.head?_cons]
  rw [u1, hb]
  simp [eq_comm]

theorem gives_u2 : u2.Gives bytes offset (offset + 2 ≤ bytes.size) (bytes.halfAt offset)
    (offset + 2) := by
  intro x
  unfold u2
  rw [Bytes.half?_eq]
  by_cases h : offset + 2 ≤ bytes.size <;> simp [h, eq_comm]

theorem gives_u4 : u4.Gives bytes offset (offset + 4 ≤ bytes.size) (bytes.wordAt offset)
    (offset + 4) := by
  intro x
  unfold u4
  rw [Bytes.word?_eq]
  by_cases h : offset + 4 ≤ bytes.size <;> simp [h, eq_comm]

theorem gives_take (length : Nat) : (take length).Gives bytes offset
    (length ≤ bytes.size - offset) (bytes.slice offset (offset + length)) (offset + length) := by
  intro x
  unfold take
  by_cases h : length ≤ bytes.size - offset
  · simp [h, Nat.not_lt.2 h, eq_comm]
  · simp [h, Nat.not_le.1 h]

theorem gives_untilNul : untilNul.Gives bytes offset (0 ∈ bytes.toList.drop offset)
    (Bytes.untilZero (bytes.toList.drop offset)).toArray
    (offset + (Bytes.untilZero (bytes.toList.drop offset)).length + 1) := by
  intro x
  unfold untilNul
  rw [Bytes.findNul?_eq]
  generalize hrest : bytes.toList.drop offset = rest
  by_cases h : 0 ∈ rest
  · have hslice : bytes.slice offset (offset + (Bytes.untilZero rest).length) =
        (Bytes.untilZero rest).toArray := by
      apply Array.toList_inj.1
      rw [Bytes.toList_slice, hrest, Nat.add_sub_cancel_left]
      exact (List.prefix_iff_eq_take.1 (List.takeWhile_prefix _)).symm
    simp [h, hslice, eq_comm]
  · simp [h]

/-- A reader that refuses what meets a condition. -/
theorem Gives.ite_fail {r : Reader α} {c : Prop} [Decidable c] {cause : Fault.Cause}
    (h : r.Gives bytes offset p a after) :
    (if c then fail cause else r).Gives bytes offset (¬c ∧ p) a after := by
  by_cases hc : c
  · rw [if_pos hc]
    exact (gives_fail (a := a) cause).congr (by simp [hc]) fun _ => rfl
  · rw [if_neg hc]
    exact h.congr (by simp [hc]) fun _ => rfl

theorem gives_seek (target : Nat) : (seek target).Gives bytes offset True () target := by
  intro x
  simp [seek, eq_comm]

theorem Gives.map_eq_ok_iff {r : Reader α} (h : r.Gives bytes offset p a after)
    {f : α × Nat → β} : (r bytes offset).map f = .ok b ↔ p ∧ b = f (a, after) := by
  by_cases hp : p
  · simp [h.eq_ok hp, hp, Except.map, eq_comm]
  · obtain ⟨fault, hfault⟩ := h.not_ok hp
    simp [hfault, hp, Except.map]

theorem Gives.elsewhere {r : Reader α} {target : Nat} (h : r.Gives bytes target p a after) :
    (elsewhere target r).Gives bytes offset p a offset :=
  fun _ => h.map_eq_ok_iff

theorem Gives.within {r : Reader α} (h : r.Gives bytes offset p a after)
    (context : Fault.Context) : (r.within context).Gives bytes offset p a after := by
  intro x
  unfold Reader.within
  by_cases hp : p
  · rw [h.eq_ok hp]
    change Except.ok (a, after) = .ok x ↔ _
    simp [hp, eq_comm]
  · obtain ⟨fault, hfault⟩ := h.not_ok hp
    rw [hfault]
    change Except.error _ = .ok x ↔ _
    simp [hp]

/-! ## Tables -/

/-- Entries of one width stand one after the other, so an entry is where its index says. -/
theorem Gives.forIndices {r : Nat → Reader α} {width : Nat} {ok : Nat → Prop} {value : Nat → α}
    {first count : Nat}
    (h : ∀ i < count, (r (first + i)).Gives bytes (offset + width * i) (ok i) (value i)
      (offset + width * i + width)) :
    (forIndices r first count).Gives bytes offset (∀ i < count, ok i)
      ((List.range count).map value) (offset + width * count) := by
  induction count generalizing first offset ok value with
  | zero => exact (gives_pure []).congr (by simp) fun _ => rfl
  | succ count ih =>
    have hhead := h 0 (Nat.succ_pos _)
    rw [Nat.add_zero, Nat.mul_zero, Nat.add_zero] at hhead
    have htail : (forIndices r (first + 1) count).Gives bytes (offset + width)
        (∀ i < count, ok (i + 1)) ((List.range count).map fun i => value (i + 1))
        (offset + width + width * count) := by
      refine ih fun i hi => ?_
      have hentry := h (i + 1) (Nat.succ_lt_succ hi)
      rwa [Nat.mul_succ, Nat.add_comm (width * i), ← Nat.add_assoc, ← Nat.add_assoc,
        Nat.add_right_comm first] at hentry
    rw [Nat.mul_succ, Nat.add_comm (width * count), ← Nat.add_assoc]
    refine Gives.congr (Gives.bind hhead fun _ => Gives.bind htail fun _ => gives_pure _) ?_
      fun _ => ?_
    · rw [Nat.forall_lt_succ_left, and_true]
    · rw [List.range_succ_eq_map, List.map_cons, List.map_map]
      rfl

theorem Gives.times {r : Reader α} {width : Nat} {ok : Nat → Prop} {value : Nat → α} {count : Nat}
    (h : ∀ i < count, r.Gives bytes (offset + width * i) (ok i) (value i)
      (offset + width * i + width)) :
    (times count r).Gives bytes offset (∀ i < count, ok i) ((List.range count).map value)
      (offset + width * count) :=
  Gives.forIndices h

/-! ## Bytes that are read as a value -/

/-- The reader takes just the bytes `encoded` and gives `value` for them, wherever they stand. -/
def Decodes (r : Reader α) (encoded : List UInt8) (value : α) : Prop :=
  ∀ before rest : List UInt8, r (before ++ encoded ++ rest).toArray before.length =
    .ok (value, before.length + encoded.length)

theorem decodes_pure (a : α) : (pure a : Reader α).Decodes [] a :=
  fun _ _ => rfl

theorem Decodes.bind {r : Reader α} {next : α → Reader β} {front back : List UInt8}
    (hr : r.Decodes front a) (hnext : (next a).Decodes back b) :
    (r >>= next).Decodes (front ++ back) b := by
  intro before rest
  have hfront := hr before (back ++ rest)
  have hback := hnext (before ++ front) rest
  simp only [List.append_assoc, List.length_append, Nat.add_assoc] at hfront hback ⊢
  rw [bind_of_eq_ok hfront]
  exact hback

/-- What is made of the value at the end takes no bytes. -/
theorem Decodes.bind_pure {r : Reader α} {encoded : List UInt8} (h : r.Decodes encoded a)
    (f : α → β) : (r >>= fun x => pure (f x)).Decodes encoded (f a) := by
  rw [← List.append_nil encoded]
  exact Decodes.bind h (decodes_pure (f a))

end Reader
end DalvikLinkage
