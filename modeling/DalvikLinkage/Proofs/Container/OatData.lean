import DalvikLinkage.Proofs.Container.OatStore
import DalvikLinkage.Proofs.Text.Reading
import DalvikLinkage.Proofs.Text.Utf8
import Mathlib.Algebra.Group.Nat.Defs

/-!
# The data of a runtime image is read as it was written

The data has no table of contents: a reader looks for the store, and behind it for images, and could
take something else for them. It does not. The words before the store are zero, and no zero is the
length of a store. From the end of the store on, each image stands at the first multiple of four, so
it is the first thing the reader looks at, and its header says how far it reaches.

Results:
* `version?_of_partAt`: the version is found;
* `scanImages_encodeImages`: the images are found one after the other;
* `findStore?_encode`: the store is found, and nothing before it;
* `ofBytes_encode`: all that the data was made of is read back.
-/
namespace DalvikLinkage.Oat

open Bytes (PartAt fourOf)

/-! ## What the data is made of -/

/-- The parts that the data of a runtime image is made of. -/
structure Parts where
  version : Nat
  checksum : UInt32
  instructionSet : UInt32
  features : UInt32
  /-- How many words there are between the count of images and the store. -/
  gap : Nat
  pairs : List (String × String)
  images : List Bytes
  deriving Repr

/-- The zero bytes up to the next multiple of four. -/
def padding (length : Nat) : List UInt8 :=
  List.replicate ((4 - length % 4) % 4) 0

/-- Images behind bytes of that length, each at a multiple of four. -/
def encodeImages (length : Nat) : List Bytes → List UInt8
  | [] => []
  | image :: rest =>
    padding length ++ (image.toList ++
      encodeImages (length + (padding length).length + image.size) rest)

/-- The last decimal digit of a number. -/
def digit (n : Nat) : UInt8 :=
  (48 + n % 10).toUInt8

/-- The last three decimal digits of a number. -/
def threeDigits (n : Nat) : List UInt8 :=
  [digit (n / 100), digit (n / 10), digit n]

/-- The bytes can stand as an image in the data: they have an image's magic and a header, which
gives their length. -/
structure IsEmbeddable (image : Bytes) : Prop where
  magic : isImage image = true
  header : 0x70 ≤ image.size
  size : (image.wordAt 0x20).toNat = image.size

namespace Parts

/-- The bytes of the store's keys and values. -/
def bytePairs (p : Parts) : List (List UInt8 × List UInt8) :=
  p.pairs.map fun pair => (Utf8.encode pair.1.toList, Utf8.encode pair.2.toList)

/-- Everything before the length of the store. -/
def encodeFront (p : Parts) : List UInt8 :=
  [0x6f, 0x61, 0x74, 0x0a] ++ (threeDigits p.version ++ [0]) ++
    (fourOf p.checksum ++ fourOf p.instructionSet ++ fourOf p.features) ++
    fourOf p.images.length.toUInt32 ++ List.replicate (4 * p.gap) 0

/-- The length of the store and the store. -/
def encodeStore (p : Parts) : List UInt8 :=
  fourOf (encodePairs p.bytePairs).length.toUInt32 ++ encodePairs p.bytePairs

/-- The data. -/
def encode (p : Parts) : List UInt8 :=
  p.encodeFront ++ p.encodeStore ++
    encodeImages (p.encodeFront.length + p.encodeStore.length) p.images

/-- The parts fit into the data: the numbers into their digits and words, the store's length before
the end of the search, and keys and values between zero bytes. -/
structure Fits (p : Parts) : Prop where
  version : p.version < 1000
  gap : 24 + 4 * p.gap + 4 ≤ 256
  pairs : p.pairs ≠ []
  key_ne_empty : ∀ pair ∈ p.pairs, pair.1 ≠ ""
  key_graphic : ∀ pair ∈ p.pairs, ∀ c ∈ pair.1.toList, 0x21 ≤ c.toNat ∧ c.toNat ≤ 0x7e
  value_no_zero : ∀ pair ∈ p.pairs, '\x00' ∉ pair.2.toList
  store_length : (encodePairs p.bytePairs).length < 2 ^ 32
  count : p.images.length < 2 ^ 32
  images : ∀ image ∈ p.images, IsEmbeddable image

/-- The last value given for a key. -/
def lastValue? (p : Parts) (key : String) : Option String :=
  ((p.pairs.filter (·.1 == key)).map (·.2)).getLast?

/-- The files that the image was compiled against, if the version is one that stores them. -/
def bootClassPath (p : Parts) : List String :=
  match p.lastValue? "bootclasspath" with
  | some value =>
    if 75 ≤ p.version ∧ value ≠ "" then (value.toList.splitOn ':').map String.ofList else []
  | none => []

end Parts

/-! ## The version -/

theorem toNat_digit (n : Nat) : (digit n).toNat = 48 + n % 10 := by
  unfold digit
  rw [Bytes.toNat_toUInt8 (by omega)]

theorem isAsciiDigit_digit (n : Nat) : isAsciiDigit (digit n) = true := by
  simp only [isAsciiDigit, UInt8.le_iff_toNat_le, toNat_digit, UInt8.reduceToNat, Bool.and_eq_true,
    decide_eq_true_eq]
  omega

theorem asciiNumber_threeDigits {n : Nat} (h : n < 1000) : asciiNumber (threeDigits n) = n := by
  simp only [asciiNumber, threeDigits, List.foldl_cons, List.foldl_nil, toNat_digit]
  omega

theorem version?_of_partAt {oat : Bytes} {version : Nat} (hversion : version < 1000)
    (h : PartAt oat 4 (threeDigits version ++ [0])) : version? oat = some version := by
  have hfirst : oat[4]? = some (digit (version / 100)) := h.getElem? (show 0 < 4 by decide)
  have hsecond : oat[5]? = some (digit (version / 10)) := h.getElem? (show 1 < 4 by decide)
  have hthird : oat[6]? = some (digit version) := h.getElem? (show 2 < 4 by decide)
  have hzero : oat[7]? = some 0 := h.getElem? (show 3 < 4 by decide)
  have hnumber := asciiNumber_threeDigits hversion
  unfold threeDigits at hnumber
  simp only [version?, hfirst, hsecond, hthird, hzero, isAsciiDigit_digit, hnumber]
  rfl

/-! ## The images -/

theorem alignUp_eq (length : Nat) : alignUp length = length + (padding length).length := by
  simp only [alignUp, padding, List.length_replicate]
  omega

variable {oat image : Bytes} {offset count index : Nat}

theorem isImageAt_eq_of_partAt (h : PartAt oat offset image.toList) (hsize : 8 ≤ image.size) :
    isImageAt oat offset = isImage image := by
  refine isImageAt_congr fun i hi => ?_
  rw [h.getElem? (by rw [Array.length_toList]; omega), Array.getElem?_toList, Nat.zero_add]

theorem imageLength?_of_partAt (himage : IsEmbeddable image)
    (h : PartAt oat offset image.toList) : imageLength? oat offset = some image.size := by
  obtain ⟨hmagic, hheader, hsize⟩ := himage
  have hword : oat.word? (offset + 0x20) = some (image.wordAt 0x20) := by
    rw [h.word? (by rw [Array.length_toList]; omega), Array.toArray_toList, Bytes.word?_eq,
      if_pos (by omega)]
  have hend : image.size ≤ oat.size - offset := by simpa using h.length_le
  have hfits : Header.length ≤ (image.wordAt 0x20).toNat ∧
      offset + (image.wordAt 0x20).toNat ≤ oat.size := by
    have hlength : Header.length = 0x70 := rfl
    constructor <;> omega
  rw [imageLength?, isImageAt_eq_of_partAt h (by omega), hmagic, hword]
  exact (if_pos hfits).trans (congrArg some hsize)

theorem scanImages_of_imageLength? {length : Nat} (hindex : index < count)
    (hlength : imageLength? oat offset = some length) :
    scanImages oat count index offset =
      ⟨entryName index, oat.slice offset (offset + length)⟩ ::
        scanImages oat count (index + 1) (alignUp (offset + length)) := by
  have hbounds := bounds_of_imageLength? hlength
  rw [scanImages, dif_pos ⟨by omega, hindex⟩]
  split
  · next h =>
    rw [hlength] at h
    cases h
    rfl
  · next h =>
    rw [hlength] at h
    cases h

theorem scanImages_of_le (h : count ≤ index) : scanImages oat count index offset = [] := by
  rw [scanImages, dif_neg]
  omega

/-- The images are found one after the other, and nothing between them. -/
theorem scanImages_encodeImages {images : List Bytes} (index : Nat)
    (himages : ∀ image ∈ images, IsEmbeddable image)
    (h : PartAt oat offset (encodeImages offset images)) :
    scanImages oat (index + images.length) index (alignUp offset) =
      images.mapIdx fun i image => ⟨entryName (index + i), image⟩ := by
  -- An image ends where the padding before the next one starts, so the offset is general.
  induction images generalizing index offset with
  | nil => exact scanImages_of_le (Nat.le_refl _)
  | cons image images ih =>
    have hbehind := PartAt.right h
    rw [← alignUp_eq] at hbehind
    have himage : PartAt oat (alignUp offset) image.toList := hbehind.left
    have hrest : PartAt oat (alignUp offset + image.size)
        (encodeImages (alignUp offset + image.size) images) := hbehind.right
    have hslice : oat.slice (alignUp offset) (alignUp offset + image.size) = image := by
      rw [← Array.toList_inj, ← Array.length_toList, himage.toList_slice]
    have hlength := imageLength?_of_partAt (himages image List.mem_cons_self) himage
    have hothers := ih (index + 1)
      (fun other hother => himages other (List.mem_cons_of_mem _ hother)) hrest
    rw [List.length_cons, scanImages_of_imageLength? (by omega) hlength, hslice, List.mapIdx_cons,
      Nat.add_comm images.length, ← Nat.add_assoc, hothers]
    simp only [Nat.add_zero, Nat.add_assoc, Nat.add_comm 1]

/-! ## The store -/

namespace Parts

variable {p : Parts}

theorem length_encodeFront (p : Parts) : p.encodeFront.length = 24 + 4 * p.gap := by
  simp only [encodeFront, threeDigits, fourOf, List.length_append, List.length_cons,
    List.length_nil, List.length_replicate]

theorem isPair_of_mem_bytePairs (h : p.Fits) : ∀ pair ∈ p.bytePairs, IsPair pair := by
  intro bytePair hmem
  obtain ⟨pair, hpair, rfl⟩ := List.mem_map.1 hmem
  have hbounds := h.key_graphic pair hpair
  have hbytes : Utf8.encode pair.1.toList = pair.1.toList.map fun c => c.toNat.toUInt8 :=
    Utf8.encode_of_ascii fun c hc => Nat.lt_of_le_of_lt (hbounds c hc).2 (by decide)
  constructor
  · simpa [hbytes] using h.key_ne_empty pair hpair
  · intro b hb
    rw [hbytes] at hb
    obtain ⟨c, hc, rfl⟩ := List.mem_map.1 hb
    have hc := hbounds c hc
    simp only [isGraphic, UInt8.le_iff_toNat_le, Bytes.toNat_toUInt8 (n := c.toNat) (by omega),
      UInt8.reduceToNat, Bool.and_eq_true, decide_eq_true_eq]
    exact hc
  · exact (Utf8.zero_mem_encode_iff _).not.2 (h.value_no_zero pair hpair)

/-- The texts of the store are the keys and values. -/
theorem decode_bytePairs (p : Parts) :
    (p.bytePairs.map fun (key, value) =>
      (String.ofList (Utf8.decodeLossy key), String.ofList (Utf8.decodeLossy value))) =
      p.pairs := by
  simp [bytePairs, Function.comp_def, Utf8.decodeLossy_encode]

theorem partAt_front (p : Parts) : PartAt p.encode.toArray 0 p.encodeFront :=
  (Bytes.partAt_toArray p.encode).left.left

theorem partAt_store (p : Parts) :
    PartAt p.encode.toArray (24 + 4 * p.gap) p.encodeStore := by
  have hstore := (Bytes.partAt_toArray p.encode).left.right
  rwa [Nat.zero_add, length_encodeFront] at hstore

theorem partAt_images (p : Parts) :
    PartAt p.encode.toArray (p.encodeFront.length + p.encodeStore.length)
      (encodeImages (p.encodeFront.length + p.encodeStore.length) p.images) := by
  have himages := (Bytes.partAt_toArray p.encode).right
  rwa [Nat.zero_add, List.length_append] at himages

/-- Every word of the gap is zero. -/
theorem partAt_gap (p : Parts) {i : Nat} (hi : i < p.gap) :
    PartAt p.encode.toArray (24 + 4 * i) (fourOf 0) := by
  have hgap : PartAt p.encode.toArray 24 (List.replicate (4 * p.gap) 0) := p.partAt_front.right
  have hsplit : 4 * p.gap = 4 * i + (4 + 4 * (p.gap - i - 1)) := by omega
  rw [hsplit, List.replicate_add, List.replicate_add] at hgap
  have hword := hgap.right.left
  rwa [List.length_replicate] at hword

theorem findStore?_encode (h : p.Fits) :
    findStore? p.encode.toArray =
      some (p.pairs, p.encodeFront.length + p.encodeStore.length) := by
  have hsize : (encodePairs p.bytePairs).length.toUInt32.toNat = (encodePairs p.bytePairs).length :=
    UInt32.toNat_ofNat_of_lt' h.store_length
  have hpairs : p.bytePairs ≠ [] := by simpa [bytePairs] using h.pairs
  have hstore := storeAt?_of_partAt (isPair_of_mem_bytePairs h) hpairs hsize.symm p.partAt_store
  have hend := p.partAt_store.length_le
  have hlength : p.encodeStore.length = 4 + (encodePairs p.bytePairs).length := by
    rw [encodeStore, List.length_append]
    rfl
  have hplace : 24 + 4 * p.gap ∈ storeOffsets p.encode.toArray := by
    have hgap := h.gap
    rw [mem_storeOffsets]
    omega
  -- What can be tried before the store is a word of the gap.
  have hfirst : ∀ o ∈ storeOffsets p.encode.toArray, o < 24 + 4 * p.gap →
      storeAt? p.encode.toArray o = none := by
    intro o ho hbefore
    obtain ⟨haligned, hlow, -⟩ := mem_storeOffsets.1 ho
    obtain ⟨i, rfl⟩ : ∃ i, o = 24 + 4 * i := ⟨(o - 24) / 4, by omega⟩
    exact storeAt?_of_zero (p.partAt_gap (by omega))
  rw [findStore?, findSome?_storeAt? hplace hstore hfirst, hsize, Option.map_some,
    length_encodeFront, hlength, ← Nat.add_assoc]
  exact congrArg (fun pairs => some (pairs, _)) p.decode_bytePairs

/-! ## The data as a whole -/

theorem value?_eq_lastValue? {c : Contents} (h : c.keyValues = p.pairs) (key : String) :
    c.value? key = p.lastValue? key := by
  rw [Contents.value?, h, lastValue?, ← List.head?_reverse, ← List.map_reverse,
    ← List.filter_reverse, List.head?_map, List.head?_filter]
  induction p.pairs.reverse with
  | nil => rfl
  | cons pair pairs ih =>
    rw [List.lookup_cons, List.find?_cons, ih, BEq.comm (a := key)]
    cases pair.1 == key <;> rfl

theorem bootClassPath_eq {c : Contents} (hversion : c.version = some p.version)
    (hpairs : c.keyValues = p.pairs) : c.bootClassPath = p.bootClassPath := by
  have hkey : bootClassPathKey = "bootclasspath" := rfl
  have hlimit : minBootClassPathVersion = 75 := rfl
  have hpieces (cs : List Char) : Text.pieces (· == ':') cs = cs.splitOn ':' :=
    Text.pieces_eq_splitOn ':' cs
  rw [Contents.bootClassPath, hversion, value?_eq_lastValue? hpairs, hkey, hlimit, bootClassPath]
  cases p.lastValue? "bootclasspath" with
  | none => rfl
  | some value => simp only [hpieces]

/-- **The data is read as it was written.** Reading succeeds and has nothing to say; it finds the
version, for each key the value that was given last, and the images byte for byte in their order,
under the names of the images of an archive. -/
theorem ofBytes_encode (p : Parts) (h : p.Fits) :
    ∃ contents, ofBytes p.encode.toArray = Logged.value contents ∧
      contents.version = some p.version ∧
      (∀ key, contents.value? key = p.lastValue? key) ∧
      contents.entries = p.images.mapIdx (fun i image => ⟨entryName i, image⟩) ∧
      contents.bootClassPath = p.bootClassPath := by
  have hversion : version? p.encode.toArray = some p.version :=
    version?_of_partAt h.version p.partAt_front.left.left.left.right
  have hcount : PartAt p.encode.toArray countOffset (fourOf p.images.length.toUInt32) :=
    p.partAt_front.left.right
  have hstore := findStore?_encode h
  have himages := scanImages_encodeImages 0 h.images p.partAt_images
  have hlength : p.images.length.toUInt32.toNat = p.images.length :=
    UInt32.toNat_ofNat_of_lt' h.count
  have hread : Reader.u4 p.encode.toArray countOffset =
      .ok (p.images.length.toUInt32, countOffset + 4) := by
    rw [Reader.u4, hcount.word?_eq_some]
  refine ⟨⟨some p.version, p.pairs, p.images.mapIdx fun i image => ⟨entryName i, image⟩⟩, ?_, rfl,
    value?_eq_lastValue? rfl, rfl, bootClassPath_eq rfl rfl⟩
  rw [ofBytes, hread, hstore]
  change Logged.value (Contents.mk (version? p.encode.toArray) p.pairs
    (scanImages p.encode.toArray p.images.length.toUInt32.toNat 0 _)) = _
  simp only [Nat.zero_add] at himages
  rw [hversion, hlength, himages]

/-- An image that is all header, with bytes behind it that belong to no part of it. -/
def bareImage (extra : Nat) : Bytes :=
  ([0x64, 0x65, 0x78, 0x0a, 0x30, 0x33, 0x35, 0] ++ List.replicate 24 0 ++
    fourOf (0x70 + extra).toUInt32 ++ List.replicate (76 + extra) 0).toArray

/-- Two images, of which the first ends between multiples of four, and a key with two values. -/
def twice : Parts where
  version := 79
  checksum := 0x12345678
  instructionSet := 1
  features := 0xffffffff
  gap := 3
  pairs := [("bootclasspath", "old.jar"), ("comment", "é €"), ("bootclasspath", "a.jar::b.jar")]
  images := [bareImage 1, bareImage 6]

theorem fits_twice : twice.Fits where
  version := by decide
  gap := by decide
  pairs := by decide
  key_ne_empty := by decide
  key_graphic := by simp [twice]
  value_no_zero := by decide
  store_length := by decide +kernel
  count := by decide
  images := List.forall_mem_cons.2 ⟨⟨by decide, by decide, by decide⟩,
    List.forall_mem_singleton.2 ⟨by decide, by decide, by decide⟩⟩

theorem ofBytes_encode_twice :
    twice.Fits ∧ ∃ contents, ofBytes twice.encode.toArray = Logged.value contents ∧
      contents.version = some 79 ∧
      contents.value? "bootclasspath" = some "a.jar::b.jar" ∧
      contents.value? "comment" = some "é €" ∧ contents.value? "Comment" = none ∧
      contents.entries = [⟨"classes.dex", bareImage 1⟩, ⟨"classes2.dex", bareImage 6⟩] ∧
      contents.bootClassPath = ["a.jar", "", "b.jar"] := by
  obtain ⟨contents, hread, hversion, hvalue, hentries, hpath⟩ := ofBytes_encode twice fits_twice
  refine ⟨fits_twice, contents, hread, hversion, ?_, ?_, ?_, hentries, hpath⟩
  · exact hvalue "bootclasspath"
  · exact hvalue "comment"
  · exact hvalue "Comment"

end Parts

end DalvikLinkage.Oat
