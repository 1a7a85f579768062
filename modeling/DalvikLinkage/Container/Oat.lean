import DalvikLinkage.Container.Basic
import DalvikLinkage.Elf.File

/-!
# Images of the runtime

The data that the symbol `oatdata` of such a file names: a header with a version and the number of
embedded images, a store of keys and values, and the images. How long the header is depends on the
version, so the store is looked for: it is the first thing at a multiple of four that is a length
followed by exactly that many bytes of pairs. The images are looked for behind it, again at
multiples of four.
-/
namespace DalvikLinkage.Oat

/-- The name of the symbol. -/
def symbolName : List UInt8 :=
  asciiBytes "oatdata"

/-- The key under which the boot class path is stored. -/
def bootClassPathKey : String := "bootclasspath"

/-- Older versions do not store the boot class path. -/
def minBootClassPathVersion : Nat := 75

/-- Where the number of images stands. -/
def countOffset : Nat := 20

/-- The store's length is not looked for from here on. -/
def searchLimit : Nat := 256

/-- What the data holds. -/
structure Contents where
  version : Option Nat
  keyValues : List (String × String)
  entries : List Entry
  deriving Repr

/-! ## The header -/

/-- The data starts with the magic of an image of the runtime. -/
def hasMagic (oat : Bytes) : Bool :=
  oat.hasAt 0 [0x6f, 0x61, 0x74, 0x0a]

/-- The version: three digits and a zero byte after the magic. -/
def version? (oat : Bytes) : Option Nat :=
  match oat[4]?, oat[5]?, oat[6]?, oat[7]? with
  | some a, some b, some c, some d =>
    if isAsciiDigit a && isAsciiDigit b && isAsciiDigit c && d == 0 then
      some (asciiNumber [a, b, c])
    else none
  | _, _, _, _ => none

/-! ## The store -/

/-- A visible ASCII character. -/
def isGraphic (b : UInt8) : Bool :=
  0x21 ≤ b && b ≤ 0x7e

/-- A nonempty key of visible characters and a value, each ended by a zero byte, from the start of
the bytes, and what follows. -/
def pair? (bytes : List UInt8) : Option ((List UInt8 × List UInt8) × List UInt8) :=
  match bytes.takeWhile isGraphic, bytes.dropWhile isGraphic with
  | k :: key, 0 :: after =>
    match after.dropWhile (· != 0) with
    | _ :: rest => some ((k :: key, after.takeWhile (· != 0)), rest)
    | [] => none
  | _, _ => none

theorem length_lt_of_pair? {bytes rest : List UInt8} {kv : List UInt8 × List UInt8}
    (h : pair? bytes = some (kv, rest)) : rest.length < bytes.length := by
  unfold pair? at h
  split at h
  · rename_i k key after h1 h2
    split at h
    · rename_i b rest' h3
      simp only [Option.some.injEq, Prod.mk.injEq] at h
      obtain ⟨-, rfl⟩ := h
      have e1 := congrArg List.length
        (List.takeWhile_append_dropWhile (p := isGraphic) (l := bytes))
      have e2 := congrArg List.length
        (List.takeWhile_append_dropWhile (p := (· != 0)) (l := after))
      rw [List.length_append, h1, h2] at e1
      rw [List.length_append, h3] at e2
      simp only [List.length_cons] at e1 e2
      omega
    · simp at h
  · simp at h

/-- The pairs that fill the bytes. -/
def pairs? (bytes : List UInt8) : Option (List (List UInt8 × List UInt8)) :=
  match bytes with
  | [] => some []
  | b :: tail =>
    match h : pair? (b :: tail) with
    | none => none
    | some (kv, rest) =>
      have := length_lt_of_pair? h
      (pairs? rest).map (kv :: ·)
termination_by bytes.length
decreasing_by assumption

/-- The pairs of a store whose length stands at `offset`, and the offset after the store. -/
def storeAt? (oat : Bytes) (offset : Nat) : Option (List (List UInt8 × List UInt8) × Nat) := do
  let size ← oat.word? offset
  let stop := offset + 4 + size.toNat
  if size = 0 ∨ oat.size < stop then none
  else
    let pairs ← pairs? (oat.slice (offset + 4) stop).toList
    return (pairs, stop)

/-- The places where a store can be. -/
def storeOffsets (oat : Bytes) : List Nat :=
  let limit := min oat.size searchLimit
  ((List.range (limit / 4)).map (4 * ·)).filter fun o => countOffset + 4 ≤ o && o + 4 ≤ limit

/-- The first store, and the offset after it. -/
def findStore? (oat : Bytes) : Option (List (String × String) × Nat) :=
  let decode (bytes : List UInt8) : String := String.ofList (Utf8.decodeLossy bytes)
  ((storeOffsets oat).findSome? (storeAt? oat)).map fun (pairs, stop) =>
    (pairs.map fun (key, value) => (decode key, decode value), stop)

/-! ## The images -/

/-- The least multiple of four that is not below `n`. -/
def alignUp (n : Nat) : Nat :=
  (n + 3) / 4 * 4

/-- The length of the image at an offset: it has an image's magic there, and the length its header
gives is not below that of a header and does not run past the end. -/
def imageLength? (oat : Bytes) (offset : Nat) : Option Nat := do
  if !isImageAt oat offset then none
  else
    let size ← oat.word? (offset + 0x20)
    if Header.length ≤ size.toNat ∧ offset + size.toNat ≤ oat.size then some size.toNat else none

theorem bounds_of_imageLength? {oat : Bytes} {offset n : Nat}
    (h : imageLength? oat offset = some n) : Header.length ≤ n ∧ offset + n ≤ oat.size := by
  unfold imageLength? at h
  split at h
  · cases h
  · obtain ⟨size, -, hs⟩ := Option.bind_eq_some_iff.1 h
    split at hs
    · rename_i hb
      cases hs
      exact hb
    · cases hs

/-- The name of the image with that index. -/
def entryName (index : Nat) : String :=
  if index = 0 then "classes.dex" else "classes" ++ toString (index + 1) ++ ".dex"

/-- The images from `offset` on, the first of which has the index `index`, until there are `count`.
-/
def scanImages (oat : Bytes) (count index offset : Nat) : List Entry :=
  if h : offset + Header.length ≤ oat.size ∧ index < count then
    have := h.1
    match hl : imageLength? oat offset with
    | some length =>
      have := bounds_of_imageLength? hl
      ⟨entryName index, oat.slice offset (offset + length)⟩ ::
        scanImages oat count (index + 1) (alignUp (offset + length))
    | none => scanImages oat count index (offset + 4)
  else []
termination_by oat.size - offset
decreasing_by all_goals simp only [Header.length, alignUp] at *; omega

/-! ## The contents -/

/-- Reads the data. -/
def ofBytes (oat : Bytes) : Logged Fault Contents := do
  let (count, _) ← Logged.of (Reader.u4 oat countOffset)
  let store := findStore? oat
  Logged.note (if store.isSome then [] else [.keyValueStoreMissing])
  let (keyValues, stop) := store.getD ([], countOffset + 4)
  return {
    version := version? oat
    keyValues
    entries := scanImages oat count.toNat 0 (alignUp stop) }

namespace Contents

/-- The last value given for a key. -/
def value? (c : Contents) (key : String) : Option String :=
  c.keyValues.reverse.lookup key

/-- The files that the image was compiled against. -/
def bootClassPath (c : Contents) : List String :=
  match c.version, c.value? bootClassPathKey with
  | some version, some value =>
    if minBootClassPathVersion ≤ version ∧ value ≠ "" then
      (Text.pieces (· == ':') value.toList).map String.ofList
    else []
  | _, _ => []

def container (c : Contents) : Container where
  entryNames := c.entries.map (·.name)
  entry? name := c.entries.find? (·.name == name)
  isBootImage := true
  bootClassPath := c.bootClassPath

end Contents

/-- The contents of an ELF file that is an image of the runtime. -/
def ofElf (path : Path) (bytes : Bytes) : Logged ClassPath.Error Contents :=
  match Elf.File.ofBytes? bytes with
  | none => Logged.fail (.unsupportedFormat path .badElf)
  | some file =>
    match file.range? symbolName bytes.size with
    | none => Logged.fail (.unsupportedFormat path .noOatSymbol)
    | some (start, stop) =>
      let oat := bytes.slice start stop
      if hasMagic oat then (ofBytes oat).mapError (.malformed path)
      else Logged.fail (.unsupportedFormat path .noOatHeader)

end DalvikLinkage.Oat
