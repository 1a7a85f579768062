import DalvikLinkage.Proofs.Container.OatData

/-!
# The images that are found in runtime data

All numbers in the data come from the file: where the store ends, how many images there are, how
long each of them is. Whatever they are, the images that the reader takes are slices of the data
that do not overlap. The reader looks at every multiple of four behind the store, except at those
inside an image that it has taken. So where it ends with fewer images than the header announces, it
has missed none.

Results:
* `imageLength?_eq_some_iff`: where an image stands;
* `exists_scanned`: what a scan finds from any offset on;
* `ofBytes_scanned`: what is read from any data.
-/
namespace DalvikLinkage.Oat

open Bytes (PartAt)

/-! ## Where an image stands -/

/-- At the offset there is an image's magic, and the length in its header is not below that of a
header and does not run past the end of the data. -/
structure EmbeddedAt (oat : Bytes) (offset length : Nat) : Prop where
  magic : isImageAt oat offset = true
  size : (oat.wordAt (offset + 0x20)).toNat = length
  header : 0x70 ≤ length
  fits : offset + length ≤ oat.size

/-- A part of the data: `length` bytes from `start` on. -/
structure Span where
  start : Nat
  length : Nat
  deriving DecidableEq, Repr

/-- The offset behind the part. -/
def Span.stop (p : Span) : Nat :=
  p.start + p.length

/-- The offset from which images are looked for: the end of the store, or the end of the count of
images if there is no store. -/
def storeEnd (oat : Bytes) : Nat :=
  match findStore? oat with
  | some (_, stop) => stop
  | none => 24

variable {oat : Bytes} {offset length count index : Nat}

theorem imageLength?_eq_some_iff :
    imageLength? oat offset = some length ↔ EmbeddedAt oat offset length := by
  have hreach (h : offset + 0x70 ≤ oat.size) :
      oat.word? (offset + 0x20) = some (oat.wordAt (offset + 0x20)) := by
    rw [Bytes.word?_eq, if_pos (by omega)]
  have hlength : Header.length = 0x70 := rfl
  constructor
  · intro h
    obtain ⟨hheader, hfits⟩ := bounds_of_imageLength? h
    unfold imageLength? at h
    split at h
    · cases h
    · rename_i hmagic
      rw [hreach (by omega)] at h
      obtain ⟨-, hsize⟩ := Option.ite_none_right_eq_some.1 h
      exact ⟨by simpa using hmagic, by simpa using hsize, hheader, hfits⟩
  · intro ⟨hmagic, hsize, hheader, hfits⟩
    have hbounds : Header.length ≤ (oat.wordAt (offset + 0x20)).toNat ∧
        offset + (oat.wordAt (offset + 0x20)).toNat ≤ oat.size := by
      omega
    rw [imageLength?, hmagic, hreach (by omega)]
    exact (if_pos hbounds).trans (congrArg some hsize)

/-! ## What a scan finds -/

/-- The images found from an offset on, of which there can be at most `count`: each stands at a
multiple of four, no two overlap, and if there are fewer than `count` then each further place where
an image could stand is inside one of them. -/
structure Scanned (oat : Bytes) (count offset : Nat) (spans : List Span) : Prop where
  aligned : ∀ p ∈ spans, p.start % 4 = 0
  behind : ∀ p ∈ spans, offset ≤ p.start
  images : ∀ p ∈ spans, EmbeddedAt oat p.start p.length
  apart : spans.Pairwise fun p q => p.stop ≤ q.start
  length_le : spans.length ≤ count
  complete : spans.length < count → ∀ o n, o % 4 = 0 → offset ≤ o → EmbeddedAt oat o n →
    ∃ p ∈ spans, p.start ≤ o ∧ o < p.stop

/-- The entries that the scan makes of the images it finds. -/
def entriesAt (oat : Bytes) (index : Nat) (spans : List Span) : List Entry :=
  spans.mapIdx fun i p => ⟨entryName (index + i), oat.slice p.start p.stop⟩

variable {spans : List Span}

theorem le_alignUp (n : Nat) : n ≤ alignUp n := by
  unfold alignUp; omega

theorem alignUp_le {n o : Nat} (ho : o % 4 = 0) (h : n ≤ o) : alignUp n ≤ o := by
  unfold alignUp; omega

theorem alignUp_mod (n : Nat) : alignUp n % 4 = 0 := by
  unfold alignUp; omega

/-- Only multiples of four count, so a scan may start at the next one. -/
theorem Scanned.of_alignUp (h : Scanned oat count (alignUp offset) spans) :
    Scanned oat count offset spans where
  aligned := h.aligned
  behind p hp := Nat.le_trans (le_alignUp offset) (h.behind p hp)
  images := h.images
  apart := h.apart
  length_le := h.length_le
  complete hfew o n ho hle := h.complete hfew o n ho (alignUp_le ho hle)

/-- Nothing can stand where the data ends before a header does. -/
theorem scanned_nil (h : count = 0 ∨ oat.size < offset + 0x70) : Scanned oat count offset [] where
  aligned := by simp
  behind := by simp
  images := by simp
  apart := .nil
  length_le := Nat.zero_le count
  complete hfew o n _ hle hat := by
    have hheader := hat.header
    have hfits := hat.fits
    simp only [List.length_nil] at hfew
    omega

/-- An image at the offset is taken, and the scan goes on behind it. -/
theorem scanned_cons (hoffset : offset % 4 = 0) (hat : EmbeddedAt oat offset length)
    (h : Scanned oat count (offset + length) spans) :
    Scanned oat (count + 1) offset (⟨offset, length⟩ :: spans) where
  aligned := List.forall_mem_cons.2 ⟨hoffset, h.aligned⟩
  behind := List.forall_mem_cons.2 ⟨Nat.le_refl offset, fun p hp =>
    Nat.le_trans (Nat.le_add_right offset length) (h.behind p hp)⟩
  images := List.forall_mem_cons.2 ⟨hat, h.images⟩
  apart := List.pairwise_cons.2 ⟨h.behind, h.apart⟩
  length_le := Nat.succ_le_succ h.length_le
  complete hfew o n ho hle hato := by
    by_cases hinside : o < offset + length
    · exact ⟨⟨offset, length⟩, List.mem_cons_self, hle, hinside⟩
    · obtain ⟨p, hp, hcovers⟩ :=
        h.complete (Nat.lt_of_succ_lt_succ hfew) o n ho (Nat.le_of_not_lt hinside) hato
      exact ⟨p, List.mem_cons_of_mem _ hp, hcovers⟩

/-- Where no image stands the scan goes on at the next multiple of four. -/
theorem scanned_skip (hoffset : offset % 4 = 0) (hnone : ∀ n, ¬EmbeddedAt oat offset n)
    (h : Scanned oat count (offset + 4) spans) : Scanned oat count offset spans where
  aligned := h.aligned
  behind p hp := Nat.le_trans (Nat.le_add_right offset 4) (h.behind p hp)
  images := h.images
  apart := h.apart
  length_le := h.length_le
  complete hfew o n ho hle hat := by
    by_cases heq : o = offset
    · subst heq
      exact absurd hat (hnone n)
    · exact h.complete hfew o n ho (by omega) hat

theorem exists_scanned (oat : Bytes) (count index : Nat) (hoffset : offset % 4 = 0) :
    ∃ spans, scanImages oat count index offset = entriesAt oat index spans ∧
      Scanned oat (count - index) offset spans := by
  fun_induction scanImages oat count index offset with
  | case1 index offset h hle length hl hbounds ih =>
    obtain ⟨spans, hentries, hscanned⟩ := ih (alignUp_mod _)
    refine ⟨⟨offset, length⟩ :: spans, ?_, ?_⟩
    · rw [hentries, entriesAt, entriesAt, List.mapIdx_cons]
      simp only [Nat.add_zero, Nat.add_assoc, Nat.add_comm 1]
      rfl
    · have hcons := scanned_cons hoffset (imageLength?_eq_some_iff.1 hl) hscanned.of_alignUp
      rwa [show count - (index + 1) + 1 = count - index by omega] at hcons
  | case2 index offset h hle hl ih =>
    obtain ⟨spans, hentries, hscanned⟩ := ih (by omega)
    refine ⟨spans, hentries, scanned_skip hoffset (fun n hat => ?_) hscanned⟩
    rw [imageLength?_eq_some_iff.2 hat] at hl
    cases hl
  | case3 index offset h =>
    have hlength : Header.length = 0x70 := rfl
    exact ⟨[], rfl, scanned_nil (by omega)⟩

/-! ## What is read -/

theorem partAt_slice (h : offset + length ≤ oat.size) :
    PartAt oat offset (oat.slice offset (offset + length)).toList ∧
      (oat.slice offset (offset + length)).size = length := by
  constructor
  · rw [PartAt, Bytes.toList_slice]
    exact List.take_prefix _ _
  · unfold Bytes.slice
    rw [Array.size_extract]
    omega

/-- An image that stands in the data, taken by itself, is one. -/
theorem EmbeddedAt.isEmbeddable (h : EmbeddedAt oat offset length) :
    IsEmbeddable (oat.slice offset (offset + length)) := by
  obtain ⟨hmagic, hsize, hheader, hfits⟩ := h
  obtain ⟨hpart, hslice⟩ := partAt_slice hfits
  have hword := hpart.word? (i := 0x20) (by rw [Array.length_toList]; omega)
  rw [Array.toArray_toList] at hword
  refine ⟨?_, by omega, ?_⟩
  · rw [← isImageAt_eq_of_partAt hpart (by omega), hmagic]
  · rw [hslice, Bytes.wordAt, ← hword]
    exact hsize

theorem outcome_ofBytes_eq_ok (h : 24 ≤ oat.size) : ∃ contents,
    (ofBytes oat).outcome = .ok contents ∧
      contents.entries = scanImages oat (oat.wordAt 20).toNat 0 (alignUp (storeEnd oat)) := by
  have hread : Reader.u4 oat countOffset = .ok (oat.wordAt 20, 24) :=
    Reader.gives_u4.eq_ok h
  refine ⟨_, Logged.outcome_bind_eq_ok_iff.2 ⟨_, hread,
    Logged.outcome_bind_eq_ok_iff.2 ⟨(), rfl, rfl⟩⟩, ?_⟩
  unfold storeEnd
  cases findStore? oat <;> rfl

theorem outcome_ofBytes_eq_error (h : oat.size < 24) :
    ∃ fault, (ofBytes oat).outcome = .error fault := by
  cases houtcome : (ofBytes oat).outcome with
  | error fault => exact ⟨fault, rfl⟩
  | ok contents =>
    obtain ⟨_, hread, -⟩ := Logged.outcome_bind_eq_ok_iff.1 houtcome
    obtain ⟨hreach, -⟩ := (Reader.gives_u4 _).1 hread
    unfold countOffset at hreach
    omega

/-- **What is read from any data.** Data that reaches over the count of images is read, and shorter
data is not. The entries are the images that a scan from the end of the store on finds: slices of
the data that do not overlap, each at a multiple of four and as long as its header says, not more
than the count announces, and if there are fewer then none was missed. -/
theorem ofBytes_scanned (oat : Bytes) :
    (24 ≤ oat.size → ∃ contents, ∃ spans : List Span,
      (ofBytes oat).outcome = .ok contents ∧
      contents.entries = (spans.mapIdx fun i p => ⟨entryName i, oat.slice p.start p.stop⟩) ∧
      Scanned oat (oat.wordAt 20).toNat (storeEnd oat) spans ∧
      ∀ e ∈ contents.entries, IsEmbeddable e.bytes) ∧
    (oat.size < 24 → ∃ fault, (ofBytes oat).outcome = .error fault) := by
  refine ⟨fun hsize => ?_, outcome_ofBytes_eq_error⟩
  obtain ⟨contents, houtcome, hscan⟩ := outcome_ofBytes_eq_ok hsize
  obtain ⟨spans, hentries, hscanned⟩ :=
    exists_scanned oat (oat.wordAt 20).toNat 0 (alignUp_mod (storeEnd oat))
  have hslices : contents.entries =
      spans.mapIdx fun i p => ⟨entryName i, oat.slice p.start p.stop⟩ := by
    rw [hscan, hentries, entriesAt]
    simp only [Nat.zero_add]
  refine ⟨contents, spans, houtcome, hslices, hscanned.of_alignUp, fun e he => ?_⟩
  rw [hslices, List.mem_mapIdx] at he
  obtain ⟨i, hi, rfl⟩ := he
  exact (hscanned.images _ (List.getElem_mem hi)).isEmbeddable

/-- Data that announces two images. There is one, and another one inside it. -/
def nested : Bytes :=
  (List.replicate 20 0 ++ Bytes.fourOf 2 ++ [0x64, 0x65, 0x78, 0x0a, 0x30, 0x33, 0x35, 0] ++
    List.replicate 24 0 ++ Bytes.fourOf 0x94 ++ (Parts.bareImage 0).toList).toArray

theorem embeddedAt_nested : EmbeddedAt nested 60 0x70 where
  magic := by decide +kernel
  size := by decide +kernel
  header := by decide
  fits := by decide +kernel

theorem ofBytes_scanned_nested :
    24 ≤ nested.size ∧ (∃ contents, ∃ spans : List Span,
      (ofBytes nested).outcome = .ok contents ∧
      contents.entries =
        (spans.mapIdx fun i p => ⟨entryName i, nested.slice p.start p.stop⟩) ∧
      spans.length ≤ 2 ∧
      (spans.length < 2 → ∃ p ∈ spans, p.start ≤ 60 ∧ 60 < p.stop)) ∧
    ∃ fault, (ofBytes #[]).outcome = .error fault := by
  have hsize : 24 ≤ nested.size := by decide +kernel
  have hcount : (nested.wordAt 20).toNat = 2 := by decide +kernel
  have hstore : storeEnd nested = 24 := by decide +kernel
  obtain ⟨contents, spans, houtcome, hentries, hscanned, -⟩ := (ofBytes_scanned nested).1 hsize
  rw [hcount, hstore] at hscanned
  exact ⟨hsize, ⟨contents, spans, houtcome, hentries, hscanned.length_le, fun hfew =>
    hscanned.complete hfew 60 0x70 (by decide) (by decide) embeddedAt_nested⟩,
    (ofBytes_scanned #[]).2 (by decide)⟩

end DalvikLinkage.Oat
