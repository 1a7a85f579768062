import DalvikLinkage.Bytes.Uleb128
import DalvikLinkage.Proofs.Bytes.Reading
import Mathlib.Data.List.Forall2

/-!
# Reading with more bytes

Two readings of the same file, the second one with more bytes behind it. A reader that found a value
finds it again and ends at the same place, since nothing it looked at has changed. A reader that
failed may succeed now, but only if it ran past the end; any other fault is met again.

`Outlasts` says this of two outcomes and `Persists` of two readers, up to a relation between the
values found: a reader may look at something it does not insist on, and find more of it.

Results:
* `Persists.bind`, `Persists.forIndices`: sequences and tables of such readers are such readers;
* `settled_u1`, `settled_u2`, `settled_u4`, `settled_take`, `settled_untilNul`: what the primitive
  readers find is settled;
* `Uleb128.settled_read`: so are numbers of variable length.
-/
namespace DalvikLinkage

/-- The fault is that `size` bytes end too early. -/
def Fault.PastEnd (size : Nat) (fault : Fault) : Prop :=
  match fault.cause with
  | .endOfBytes width offset => size < offset + width.bytes
  | .shortBuffer length offset => size < offset + length
  | .headerCutOff => True
  | _ => False

/-- What becomes of an outcome over `size` bytes when more bytes follow: a value becomes one that
is related to it, and a fault stays the same unless it is that the bytes end too early. -/
def Outlasts {α β : Type} (size : Nat) (R : α → β → Prop) :
    Except Fault α → Except Fault β → Prop
  | .ok a, y => ∃ b, y = .ok b ∧ R a b
  | .error fault, y => fault.PastEnd size ∨ y = .error fault

section Outlasts

variable {α α' β β' : Type} {size : Nat} {R R' : α → β → Prop} {S : α' → β' → Prop}
  {x : Except Fault α} {y : Except Fault β}

theorem Outlasts.mono (h : Outlasts size R x y) (hR : ∀ a b, R a b → R' a b) :
    Outlasts size R' x y := by
  cases x with
  | error fault => exact h
  | ok a =>
    obtain ⟨b, hb, hab⟩ := h
    exact ⟨b, hb, hR a b hab⟩

theorem Outlasts.bind {f : α → Except Fault α'} {g : β → Except Fault β'}
    (h : Outlasts size R x y) (hnext : ∀ a b, R a b → Outlasts size S (f a) (g b)) :
    Outlasts size S (x >>= f) (y >>= g) := by
  cases x with
  | error fault =>
    obtain hend | rfl := h
    · exact .inl hend
    · exact .inr rfl
  | ok a =>
    obtain ⟨b, rfl, hab⟩ := h
    exact hnext a b hab

theorem Outlasts.map {f : α → α'} {g : β → β'} (h : Outlasts size R x y)
    (hf : ∀ a b, R a b → S (f a) (g b)) : Outlasts size S (x.map f) (y.map g) := by
  cases x with
  | error fault =>
    obtain hend | rfl := h
    · exact .inl hend
    · exact .inr rfl
  | ok a =>
    obtain ⟨b, rfl, hab⟩ := h
    exact ⟨_, rfl, hf a b hab⟩

/-- What a fault is seen from does not matter. -/
theorem Outlasts.within (h : Outlasts size R x y) (context : Fault.Context) :
    Outlasts size R (x.mapError (·.within context)) (y.mapError (·.within context)) := by
  cases x with
  | error fault =>
    obtain hend | rfl := h
    · exact .inl hend
    · exact .inr rfl
  | ok a =>
    obtain ⟨b, rfl, hab⟩ := h
    exact ⟨b, rfl, hab⟩

end Outlasts

namespace Reader

variable {α α' β β' : Type} {bytes tail : Bytes} {R R' : α → β → Prop} {S : α' → β' → Prop}
  {r : Reader α} {r' : Reader β}

/-- With the tail, `r'` finds what `r` finds without it, up to a relation, and ends at the same
place. -/
def Persists (bytes tail : Bytes) (R : α → β → Prop) (r : Reader α) (r' : Reader β) : Prop :=
  ∀ offset, Outlasts bytes.size (fun x y => R x.1 y.1 ∧ x.2 = y.2) (r bytes offset)
    (r' (bytes ++ tail) offset)

/-- The tail makes no difference to what the reader finds. -/
abbrev Settled (bytes tail : Bytes) (r : Reader α) : Prop :=
  Persists bytes tail Eq r r

/-! ## Putting readers together -/

theorem Persists.mono (h : Persists bytes tail R r r') (hR : ∀ a b, R a b → R' a b) :
    Persists bytes tail R' r r' :=
  fun offset => (h offset).mono fun _ _ hab => ⟨hR _ _ hab.1, hab.2⟩

theorem persists_pure {a : α} {b : β} (h : R a b) : Persists bytes tail R (pure a) (pure b) :=
  fun offset => ⟨(b, offset), rfl, h, rfl⟩

theorem settled_pure (a : α) : Settled bytes tail (pure a : Reader α) :=
  persists_pure rfl

theorem settled_fail (cause : Fault.Cause) : Settled bytes tail (fail cause : Reader α) :=
  fun _ => .inr rfl

theorem settled_seek (target : Nat) : Settled bytes tail (seek target) :=
  fun _ => ⟨((), target), rfl, rfl, rfl⟩

theorem andThen_eq (next : α → Reader α') (offset : Nat) :
    (r >>= next) bytes offset = (r bytes offset >>= fun x => next x.1 bytes x.2) := by
  change andThen r next bytes offset = _
  unfold andThen
  cases r bytes offset <;> rfl

theorem Persists.bind {next : α → Reader α'} {next' : β → Reader β'}
    (h : Persists bytes tail R r r')
    (hnext : ∀ a b, R a b → Persists bytes tail S (next a) (next' b)) :
    Persists bytes tail S (r >>= next) (r' >>= next') := by
  intro offset
  rw [andThen_eq, andThen_eq]
  refine (h offset).bind ?_
  rintro ⟨a, after⟩ ⟨b, -⟩ ⟨hab, rfl⟩
  exact hnext a b hab after

/-- After a settled reader both readings go on with the same value. -/
theorem Settled.bind {next : α → Reader α'} {next' : α → Reader β'} (h : Settled bytes tail r)
    (hnext : ∀ a, Persists bytes tail S (next a) (next' a)) :
    Persists bytes tail S (r >>= next) (r >>= next') := by
  refine Persists.bind h ?_
  rintro a _ rfl
  exact hnext a

theorem Persists.elsewhere (h : Persists bytes tail R r r') (target : Nat) :
    Persists bytes tail R (elsewhere target r) (elsewhere target r') :=
  fun _ => (h target).map fun _ _ hab => ⟨hab.1, rfl⟩

theorem Persists.within (h : Persists bytes tail R r r') (context : Fault.Context) :
    Persists bytes tail R (r.within context) (r'.within context) :=
  fun offset => (h offset).within context

theorem Persists.forIndices {f : Nat → Reader α} {g : Nat → Reader β}
    (h : ∀ i, Persists bytes tail R (f i) (g i)) (first count : Nat) :
    Persists bytes tail (List.Forall₂ R) (forIndices f first count)
      (forIndices g first count) := by
  induction count generalizing first with
  | zero => exact persists_pure .nil
  | succ count ih =>
    refine Persists.bind (h first) fun a b hab => ?_
    refine Persists.bind (ih (first + 1)) fun as bs habs => ?_
    exact persists_pure (.cons hab habs)

theorem Settled.forIndices {f : Nat → Reader α} (h : ∀ i, Settled bytes tail (f i))
    (first count : Nat) : Settled bytes tail (forIndices f first count) :=
  (Persists.forIndices h first count).mono fun _ _ heq => by
    rwa [List.forall₂_eq_eq_eq] at heq

theorem Settled.times (h : Settled bytes tail r) (count : Nat) :
    Settled bytes tail (times count r) :=
  Settled.forIndices (fun _ => h) 0 count

/-! ## Primitive readers -/

theorem settled_u1 : Settled bytes tail u1 := by
  intro offset
  unfold u1
  by_cases h : offset < bytes.size
  · rw [Array.getElem?_append_left h, Array.getElem?_eq_getElem h]
    exact ⟨_, rfl, rfl, rfl⟩
  · rw [Array.getElem?_eq_none (Nat.not_lt.1 h)]
    exact .inl (Nat.lt_succ_of_le (Nat.not_lt.1 h))

theorem half?_append {offset : Nat} (h : offset + 2 ≤ bytes.size) :
    (bytes ++ tail).half? offset = bytes.half? offset := by
  unfold Bytes.half?
  rw [Array.getElem?_append_left (by omega), Array.getElem?_append_left (by omega)]

theorem word?_append {offset : Nat} (h : offset + 4 ≤ bytes.size) :
    (bytes ++ tail).word? offset = bytes.word? offset := by
  unfold Bytes.word?
  rw [Array.getElem?_append_left (by omega), Array.getElem?_append_left (by omega),
    Array.getElem?_append_left (by omega), Array.getElem?_append_left (by omega)]

theorem settled_u2 : Settled bytes tail u2 := by
  intro offset
  unfold u2
  by_cases h : offset + 2 ≤ bytes.size
  · rw [half?_append h, Bytes.half?_eq, if_pos h]
    exact ⟨_, rfl, rfl, rfl⟩
  · rw [Bytes.half?_eq bytes, if_neg h]
    exact .inl (Nat.not_le.1 h)

theorem settled_u4 : Settled bytes tail u4 := by
  intro offset
  unfold u4
  by_cases h : offset + 4 ≤ bytes.size
  · rw [word?_append h, Bytes.word?_eq, if_pos h]
    exact ⟨_, rfl, rfl, rfl⟩
  · rw [Bytes.word?_eq bytes, if_neg h]
    exact .inl (Nat.not_le.1 h)

theorem slice_append {start stop : Nat} (h : stop - start ≤ bytes.size - start) :
    (bytes ++ tail).slice start stop = bytes.slice start stop := by
  apply Array.toList_inj.1
  rw [Bytes.toList_slice, Bytes.toList_slice, Array.toList_append, List.drop_append,
    List.take_append_of_le_length (by simpa using h)]

theorem settled_take (length : Nat) : Settled bytes tail (take length) := by
  intro offset
  unfold take
  by_cases h : bytes.size - offset < length
  · rw [if_pos h]
    exact .inl (by simp only [Fault.PastEnd]; omega)
  · rw [if_neg h, if_neg (by rw [Array.size_append]; omega), slice_append (by omega)]
    exact ⟨_, rfl, rfl, rfl⟩

/-- The first zero byte stays the first one. -/
theorem findNul?_append (tail : Bytes) {offset stop : Nat} (h : bytes.findNul? offset = some stop) :
    stop < bytes.size ∧ (bytes ++ tail).findNul? offset = some stop := by
  fun_induction Bytes.findNul? bytes offset with
  | case1 offset hlt hzero =>
    cases h
    refine ⟨hlt, ?_⟩
    rw [Bytes.findNul?, dif_pos (by rw [Array.size_append]; omega),
      Array.getElem_append_left hlt, if_pos hzero]
  | case2 offset hlt hzero ih =>
    rw [Bytes.findNul?, dif_pos (by rw [Array.size_append]; omega),
      Array.getElem_append_left hlt, if_neg hzero]
    exact ih h
  | case3 offset hlt => cases h

theorem settled_untilNul : Settled bytes tail untilNul := by
  intro offset
  unfold untilNul
  cases h : bytes.findNul? offset with
  | none => exact .inl (by simp only [Fault.PastEnd, Width.bytes]; omega)
  | some stop =>
    obtain ⟨hstop, happend⟩ := findNul?_append tail h
    have hslice : (bytes ++ tail).slice offset stop = bytes.slice offset stop :=
      slice_append (by omega)
    simp only [happend, hslice]
    exact ⟨_, rfl, rfl, rfl⟩

end Reader

namespace Uleb128

variable {bytes tail : Bytes}

theorem settled_readWithin (limit : Nat) : Reader.Settled bytes tail (readWithin limit) := by
  induction limit with
  | zero => exact fun _ => .inr rfl
  | succ limit ih =>
    refine Reader.settled_u1.bind fun b => ?_
    split
    · exact ih.bind fun _ => Reader.settled_pure _
    · exact Reader.settled_pure _

theorem settled_read : Reader.Settled bytes tail read :=
  settled_readWithin 5

end Uleb128
end DalvikLinkage
