import DalvikLinkage.Container.Oat
import DalvikLinkage.Proofs.Bytes.Reading

/-!
# The store of keys and values

Where the store of a runtime image stands is not written anywhere. The reader tries the multiples of
four behind the count of images in turn, and takes the first one that is a length followed by just
so many bytes of pairs. Words that are zero do not stop it, since a store is not empty. Pairs are
read back as they were written because no key has a zero byte and no value has one either.

Results:
* `pairs?_encodePairs`: pairs are read back from their bytes;
* `storeAt?_of_partAt`: a length and its pairs are taken for a store;
* `findSome?_storeAt?`: the store that is found is the first one.
-/
namespace DalvikLinkage.Oat

open Bytes (PartAt fourOf)

/-! ## Pairs -/

/-- The bytes of a key and its value. -/
def encodePair (pair : List UInt8 × List UInt8) : List UInt8 :=
  pair.1 ++ 0 :: (pair.2 ++ [0])

/-- The bytes of pairs, one after the other. -/
def encodePairs (pairs : List (List UInt8 × List UInt8)) : List UInt8 :=
  pairs.flatMap encodePair

/-- A key that is not empty and visible, and a value that no zero byte cuts off. -/
structure IsPair (pair : List UInt8 × List UInt8) : Prop where
  key_ne_nil : pair.1 ≠ []
  key_graphic : ∀ b ∈ pair.1, isGraphic b = true
  value_terminates : 0 ∉ pair.2

variable {pair : List UInt8 × List UInt8} {pairs : List (List UInt8 × List UInt8)}

theorem pair?_encodePair (h : IsPair pair) (rest : List UInt8) :
    pair? (encodePair pair ++ rest) = some (pair, rest) := by
  obtain ⟨key, value⟩ := pair
  obtain ⟨hkey, hgraphic, hvalue⟩ := h
  have hbytes : encodePair (key, value) ++ rest = key ++ 0 :: (value ++ 0 :: rest) := by
    simp [encodePair]
  have hnonzero : ∀ b ∈ value, (b != 0) = true := by
    intro b hb
    exact bne_iff_ne.2 (ne_of_mem_of_not_mem hb hvalue)
  have hzero : isGraphic 0 = false := rfl
  obtain ⟨k, key, rfl⟩ := List.exists_cons_of_ne_nil hkey
  rw [pair?, hbytes, List.takeWhile_append_of_pos hgraphic, List.dropWhile_append_of_pos hgraphic,
    List.takeWhile_cons_of_neg (by simp [hzero]), List.dropWhile_cons_of_neg (by simp [hzero])]
  simp only [List.append_nil]
  rw [List.takeWhile_append_of_pos hnonzero, List.dropWhile_append_of_pos hnonzero,
    List.takeWhile_cons_of_neg (by simp), List.dropWhile_cons_of_neg (by simp), List.append_nil]

theorem encodePairs_ne_nil (h : pairs ≠ []) : encodePairs pairs ≠ [] := by
  obtain ⟨pair, rest, rfl⟩ := List.exists_cons_of_ne_nil h
  simp [encodePairs, encodePair]

theorem pairs?_encodePairs (h : ∀ pair ∈ pairs, IsPair pair) :
    pairs? (encodePairs pairs) = some pairs := by
  induction pairs with
  | nil => rw [encodePairs, List.flatMap_nil, pairs?]
  | cons pair pairs ih =>
    have hpair := pair?_encodePair (h pair List.mem_cons_self) (encodePairs pairs)
    have hrest := ih fun other hother => h other (List.mem_cons_of_mem _ hother)
    obtain ⟨b, tail, hbytes⟩ : ∃ b tail, encodePairs (pair :: pairs) = b :: tail :=
      List.exists_cons_of_ne_nil (encodePairs_ne_nil (List.cons_ne_nil _ _))
    have happend : encodePairs (pair :: pairs) = encodePair pair ++ encodePairs pairs :=
      List.flatMap_cons
    rw [← happend, hbytes] at hpair
    rw [hbytes, pairs?]
    split
    · next hnone => rw [hnone] at hpair; cases hpair
    · next kv rest hsome =>
      rw [hsome] at hpair
      cases hpair
      rw [hrest]
      rfl

/-! ## The place of the store -/

variable {oat : Bytes} {offset stop : Nat}

theorem storeAt?_of_zero (h : PartAt oat offset (fourOf 0)) : storeAt? oat offset = none := by
  rw [storeAt?, h.word?_eq_some]
  rfl

theorem storeAt?_of_partAt {size : UInt32} (hpairs : ∀ pair ∈ pairs, IsPair pair)
    (hne : pairs ≠ []) (hsize : (encodePairs pairs).length = size.toNat)
    (h : PartAt oat offset (fourOf size ++ encodePairs pairs)) :
    storeAt? oat offset = some (pairs, offset + 4 + size.toNat) := by
  have hstore : PartAt oat (offset + 4) (encodePairs pairs) := h.right
  have hlength : 0 < (encodePairs pairs).length :=
    List.length_pos_iff.2 (encodePairs_ne_nil hne)
  have hzero : size ≠ 0 := by
    rintro rfl
    exact Nat.ne_of_gt hlength hsize
  have hend := hstore.length_le
  have hslice := hstore.toList_slice
  rw [hsize] at hslice
  rw [storeAt?, h.left.word?_eq_some]
  change (if _ then _ else _) = _
  have hfits : ¬(size = 0 ∨ oat.size < offset + 4 + size.toNat) := by
    rintro (hempty | hcut)
    · exact hzero hempty
    · omega
  rw [if_neg hfits, hslice, pairs?_encodePairs hpairs]
  rfl

theorem mem_storeOffsets :
    offset ∈ storeOffsets oat ↔
      offset % 4 = 0 ∧ 24 ≤ offset ∧ offset + 4 ≤ min oat.size 256 := by
  have hfirst : countOffset + 4 = 24 := rfl
  have hlimit : searchLimit = 256 := rfl
  simp only [storeOffsets, List.mem_filter, List.mem_map, List.mem_range, Bool.and_eq_true,
    decide_eq_true_eq, hfirst, hlimit]
  constructor
  · rintro ⟨⟨k, -, rfl⟩, hlow, hhigh⟩
    exact ⟨Nat.mul_mod_right 4 k, hlow, hhigh⟩
  · rintro ⟨haligned, hlow, hhigh⟩
    exact ⟨⟨offset / 4, by omega, by omega⟩, hlow, hhigh⟩

theorem pairwise_storeOffsets (oat : Bytes) : (storeOffsets oat).Pairwise (· < ·) := by
  refine List.Pairwise.filter _ (List.pairwise_map.2 ?_)
  exact List.pairwise_lt_range.imp fun h => Nat.mul_lt_mul_of_pos_left h (by decide)

/-- **The store that is found is the first one.** -/
theorem findSome?_storeAt? {store : List (List UInt8 × List UInt8) × Nat}
    (hplace : offset ∈ storeOffsets oat) (hstore : storeAt? oat offset = some store)
    (hfirst : ∀ o ∈ storeOffsets oat, o < offset → storeAt? oat o = none) :
    (storeOffsets oat).findSome? (storeAt? oat) = some store := by
  obtain ⟨before, after, hsplit⟩ := List.append_of_mem hplace
  have hsorted := pairwise_storeOffsets oat
  rw [hsplit] at hsorted hfirst ⊢
  have hbefore : ∀ o ∈ before, storeAt? oat o = none := fun o ho =>
    hfirst o (List.mem_append_left _ ho)
      ((List.pairwise_append.1 hsorted).2.2 o ho offset List.mem_cons_self)
  exact List.findSome?_eq_some_iff.2 ⟨before, offset, after, rfl, hstore, hbefore⟩

end DalvikLinkage.Oat
