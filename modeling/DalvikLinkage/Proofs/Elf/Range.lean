import DalvikLinkage.Proofs.Elf.Words

/-!
# The range of a symbol

The range is made of numbers that stand in the file: the value and the size of the symbol, and the
places and lengths of the segments. Whoever wrote the file chose them, and each can be any word of
64 bits. Two of the sums are only taken if they are words, a third one stops at the largest word,
and one difference is taken as it is: how far the address is behind the start of a segment. It is
not below zero, since it is only taken in a segment that holds the address. So a machine that
computes in words finds the same range. A range that is found is not empty and inside the file.

Results:
* `dataOffset?_eq_some_iff`: where the loaded segments take an address from;
* `dataOffsetInWords_eq`, `rangeInWords_eq`: the same numbers come out in words of 64 bits;
* `range?_eq_some_iff`: which symbol counts, and the range it names;
* `range?_inside_file`: all of this about a file of any such numbers.
-/
namespace DalvikLinkage.Elf

variable {address start stop : Nat} {s : Segment} {segments : List Segment} {file : File}
  {name : List UInt8}

/-! ## The place of an address -/

/-- The segment is loaded, and what is at the address is in the part of it that the file holds. -/
def Segment.Holds (s : Segment) (address : Nat) : Prop :=
  s.kind = loadSegment ∧ s.address ≤ address ∧ address < s.address + s.fileSize

/-- The segment is loaded, but the part of it that the file holds does not end at a word. -/
def Segment.IsForged (s : Segment) : Prop :=
  s.kind = loadSegment ∧ 2 ^ 64 ≤ s.address + s.fileSize

/-- Where in the file the address is: in the first segment that holds it, as far behind its start as
in memory, or at the address itself if no segment holds it. -/
inductive PlacedAt (segments : List Segment) (address : Nat) : Nat → Prop
  | held {before after : List Segment} {s : Segment} (split : segments = before ++ s :: after)
    (first : ∀ t ∈ before, ¬t.Holds address) (holds : s.Holds address) :
    PlacedAt segments address (s.offset + (address - s.address))
  | unheld (none : ∀ t ∈ segments, ¬t.Holds address) : PlacedAt segments address address

/-- No segment is forged, up to the first one that holds the address. -/
def IsSoundUpTo (segments : List Segment) (address : Nat) : Prop :=
  ∀ before s after, segments = before ++ s :: after → (∀ t ∈ before, ¬t.Holds address) →
    ¬s.IsForged

theorem placedAt_cons_of_holds (h : s.Holds address) :
    PlacedAt (s :: segments) address start ↔ start = s.offset + (address - s.address) := by
  constructor
  · intro hplaced
    cases hplaced with
    | @held before after t split first holds =>
      cases before with
      | nil =>
        cases split
        rfl
      | cons u before =>
        cases split
        exact absurd h (first s List.mem_cons_self)
    | unheld none => exact absurd h (none s List.mem_cons_self)
  · intro hstart
    subst hstart
    exact @PlacedAt.held (s :: segments) address [] segments s rfl (by simp) h

theorem placedAt_cons_of_not_holds (h : ¬s.Holds address) :
    PlacedAt (s :: segments) address start ↔ PlacedAt segments address start := by
  constructor
  · intro hplaced
    cases hplaced with
    | @held before after t split first holds =>
      cases before with
      | nil =>
        cases split
        exact absurd holds h
      | cons u before =>
        cases split
        exact .held rfl (fun t ht => first t (List.mem_cons_of_mem _ ht)) holds
    | unheld none => exact .unheld fun t ht => none t (List.mem_cons_of_mem _ ht)
  · intro hplaced
    cases hplaced with
    | @held before after t split first holds =>
      subst split
      exact @PlacedAt.held _ address (s :: before) after t rfl
        (List.forall_mem_cons.2 ⟨h, first⟩) holds
    | unheld none => exact .unheld (List.forall_mem_cons.2 ⟨h, none⟩)

theorem isSoundUpTo_cons_of_holds (h : s.Holds address) :
    IsSoundUpTo (s :: segments) address ↔ ¬s.IsForged := by
  constructor
  · intro hsound
    exact hsound [] s segments rfl (by simp)
  · intro hforged before t after hsplit hfirst
    cases before with
    | nil =>
      cases hsplit
      exact hforged
    | cons u before =>
      cases hsplit
      exact absurd h (hfirst s List.mem_cons_self)

theorem isSoundUpTo_cons_of_not_holds (h : ¬s.Holds address) :
    IsSoundUpTo (s :: segments) address ↔ ¬s.IsForged ∧ IsSoundUpTo segments address := by
  constructor
  · intro hsound
    refine ⟨hsound [] s segments rfl (by simp), fun before t after hsplit hfirst => ?_⟩
    subst hsplit
    exact hsound (s :: before) t after rfl (List.forall_mem_cons.2 ⟨h, hfirst⟩)
  · intro ⟨hforged, hsound⟩ before t after hsplit hfirst
    cases before with
    | nil =>
      cases hsplit
      exact hforged
    | cons u before =>
      cases hsplit
      exact hsound before t after rfl fun v hv => hfirst v (List.mem_cons_of_mem _ hv)

/-- What one segment does to the search for an address. -/
theorem dataOffset?_cons (address : Nat) (s : Segment) (segments : List Segment) :
    (s.IsForged ∧ dataOffset? address (s :: segments) = none) ∨
    (¬s.IsForged ∧ s.Holds address ∧
      dataOffset? address (s :: segments) = checkedAdd (address - s.address) s.offset) ∨
    (¬s.IsForged ∧ ¬s.Holds address ∧
      dataOffset? address (s :: segments) = dataOffset? address segments) := by
  rw [dataOffset?]
  by_cases hkind : s.kind = loadSegment
  · rw [if_neg (by simp [hkind])]
    by_cases hforged : 2 ^ 64 ≤ s.address + s.fileSize
    · exact .inl ⟨⟨hkind, hforged⟩, by rw [checkedAdd_eq_none_iff.2 hforged]⟩
    · right
      rw [checkedAdd_eq_some_iff.2 ⟨rfl, by omega⟩]
      by_cases hholds : s.address ≤ address ∧ address < s.address + s.fileSize
      · exact .inl ⟨fun h => hforged h.2, ⟨hkind, hholds⟩, if_pos hholds⟩
      · exact .inr ⟨fun h => hforged h.2, fun h => hholds h.2, if_neg hholds⟩
  · right; right
    exact ⟨fun h => hkind h.1, fun h => hkind h.1, by simp [hkind]⟩

/-- **Where the loaded segments take an address from.** -/
theorem dataOffset?_eq_some_iff (haddress : address < 2 ^ 64) :
    dataOffset? address segments = some start ↔
      IsSoundUpTo segments address ∧ PlacedAt segments address start ∧ start < 2 ^ 64 := by
  induction segments with
  | nil =>
    constructor
    · intro h
      cases h
      exact ⟨fun before s after h => by simp at h, .unheld (by simp), haddress⟩
    · intro ⟨_, hplaced, _⟩
      cases hplaced with
      | held split => simp at split
      | unheld => rfl
  | cons s segments ih =>
    rcases dataOffset?_cons address s segments with
      ⟨hforged, hnone⟩ | ⟨hsound, hholds, hsome⟩ | ⟨hsound, hholds, hrest⟩
    · simp only [hnone, reduceCtorEq, false_iff]
      intro ⟨hsound, _⟩
      exact hsound [] s segments rfl (by simp) hforged
    · rw [hsome, checkedAdd_eq_some_iff, isSoundUpTo_cons_of_holds hholds,
        placedAt_cons_of_holds hholds]
      constructor
      · intro ⟨hsum, hword⟩
        exact ⟨hsound, by omega, hword⟩
      · intro ⟨_, hsum, hword⟩
        exact ⟨by omega, hword⟩
    · rw [hrest, ih, isSoundUpTo_cons_of_not_holds hholds, placedAt_cons_of_not_holds hholds]
      simp only [hsound, not_false_eq_true, true_and]

/-! ## The range in words -/

/-- The offset of an address in words: the sums are checked, the difference is not. -/
def dataOffsetInWords (address : UInt64) : List Segment → Except Wraps (Option UInt64)
  | [] => .ok (some address)
  | s :: rest =>
    if s.kind != loadSegment then dataOffsetInWords address rest
    else match Word.addChecked s.address.toUInt64 s.fileSize.toUInt64 with
      | none => .ok none
      | some stop =>
        if s.address.toUInt64 ≤ address ∧ address < stop then do
          let inside ← Word.sub address s.address.toUInt64
          return Word.addChecked inside s.offset.toUInt64
        else dataOffsetInWords address rest

/-- The range of a symbol in words. The last sum stops at the largest word. -/
def File.rangeInWords (file : File) (name : List UInt8) (fileLength : UInt64) :
    Except Wraps (Option (UInt64 × UInt64)) :=
  match file.find? name with
  | none => .ok none
  | some s => do
    match ← dataOffsetInWords s.value.toUInt64 file.segments with
    | none => return none
    | some start =>
      if fileLength ≤ start then return none
      else
        let stop := Word.addSaturating start s.size.toUInt64
        return some (start,
          if s.size.toUInt64 = 0 then fileLength
          else if stop ≤ fileLength then stop else fileLength)

theorem dataOffsetInWords_eq (haddress : address < 2 ^ 64) (h : ∀ s ∈ segments, s.InWords) :
    dataOffsetInWords address.toUInt64 segments =
      .ok ((dataOffset? address segments).map Nat.toUInt64) := by
  induction segments with
  | nil => rfl
  | cons s segments ih =>
    obtain ⟨hs, hsegments⟩ := List.forall_mem_cons.1 h
    rw [dataOffsetInWords, dataOffset?, ih hsegments, addChecked_eq hs.address hs.fileSize]
    by_cases hkind : (s.kind != loadSegment) = true
    · rw [if_pos hkind, if_pos hkind]
    · rw [if_neg hkind, if_neg hkind]
      cases hsum : checkedAdd s.address s.fileSize with
      | none => rfl
      | some stop =>
        have hstop := (checkedAdd_eq_some_iff.1 hsum).2
        have hinside : (s.address.toUInt64 ≤ address.toUInt64 ∧ address.toUInt64 < stop.toUInt64) ↔
            s.address ≤ address ∧ address < stop := by
          rw [le_toUInt64_iff hs.address haddress, lt_toUInt64_iff haddress hstop]
        by_cases hin : s.address ≤ address ∧ address < stop
        · -- The segment was asked for the address, so the difference is one.
          simp only [Option.map_some, if_pos (hinside.2 hin), if_pos hin,
            sub_eq_ok haddress hin.1]
          rw [← addChecked_eq (by omega) hs.offset]
          rfl
        · simp only [Option.map_some, if_neg (mt hinside.1 hin), if_neg hin]

/-- The end of a range of that size in a file of that length. -/
def stopOf (start size fileLength : Nat) : Nat :=
  if size = 0 then fileLength else min (start + size) fileLength

theorem range?_of_find?_eq_none (h : file.find? name = none) (fileLength : Nat) :
    file.range? name fileLength = none := by
  rw [File.range?, h]
  rfl

theorem range?_of_find?_eq_some {s : NamedSymbol} (h : file.find? name = some s)
    (fileLength : Nat) : file.range? name fileLength =
      (dataOffset? s.value file.segments).bind fun start =>
        if fileLength ≤ start then none else some (start, stopOf start s.size fileLength) := by
  rw [File.range?, h]
  rfl

theorem stopOf_bounds (size : Nat) {fileLength : Nat} (h : start < fileLength) :
    start < stopOf start size fileLength ∧ stopOf start size fileLength ≤ fileLength := by
  unfold stopOf
  split <;> omega

/-- The end of a range in words is the same, since the largest word is not before the end of the
file. -/
theorem stop_eq_toUInt64 {size : Nat} {fileLength : UInt64} (hstart : start < 2 ^ 64)
    (hsize : size < 2 ^ 64) :
    (if size.toUInt64 = 0 then fileLength
      else if Word.addSaturating start.toUInt64 size.toUInt64 ≤ fileLength then
        Word.addSaturating start.toUInt64 size.toUInt64
      else fileLength) = (stopOf start size fileLength.toNat).toUInt64 := by
  have hsum := toNat_addSaturating hstart hsize
  have hzero : size.toUInt64 = 0 ↔ size = 0 := by
    rw [← UInt64.toNat_inj, toNat_toUInt64 hsize]
    rfl
  have hlength := fileLength.toNat_lt
  apply UInt64.toNat_inj.1
  rw [toNat_toUInt64 (by unfold stopOf; split <;> omega)]
  simp only [hzero, UInt64.le_iff_toNat_le, hsum, stopOf]
  split_ifs <;> omega

/-- **A range is computed in words without running over.** -/
theorem rangeInWords_eq (hfile : file.InWords) (fileLength : UInt64) :
    file.rangeInWords name fileLength =
      .ok ((file.range? name fileLength.toNat).map fun r => (r.1.toUInt64, r.2.toUInt64)) := by
  rw [File.rangeInWords]
  cases hfind : file.find? name with
  | none =>
    rw [range?_of_find?_eq_none hfind]
    rfl
  | some s =>
    have hs := hfile.symbols s (List.mem_of_find?_eq_some hfind)
    simp only [dataOffsetInWords_eq hs.value hfile.segments, range?_of_find?_eq_some hfind]
    cases hplace : dataOffset? s.value file.segments with
    | none => rfl
    | some start =>
      have hstart := ((dataOffset?_eq_some_iff hs.value).1 hplace).2.2
      change (if fileLength ≤ start.toUInt64 then (pure none : Except Wraps _) else _) = _
      have hle : fileLength ≤ start.toUInt64 ↔ fileLength.toNat ≤ start := by
        rw [UInt64.le_iff_toNat_le, toNat_toUInt64 hstart]
      rw [stop_eq_toUInt64 hstart hs.size]
      by_cases hlength : fileLength.toNat ≤ start
      · rw [if_pos (hle.2 hlength), Option.bind_some, if_pos hlength]
        rfl
      · rw [if_neg (mt hle.1 hlength), Option.bind_some, if_neg hlength]
        rfl

/-! ## The range -/

/-- The first symbol of a list that has the name. -/
def IsFirst (symbols : List NamedSymbol) (name : List UInt8) (s : NamedSymbol) : Prop :=
  ∃ before after, symbols = before ++ s :: after ∧ s.name = name ∧ ∀ t ∈ before, t.name ≠ name

/-- The symbol that counts: the first dynamic one with the name, or if no dynamic one has it the
first static one. -/
def File.Names (file : File) (name : List UInt8) (s : NamedSymbol) : Prop :=
  IsFirst file.dynamicSymbols name s ∨
    (∀ t ∈ file.dynamicSymbols, t.name ≠ name) ∧ IsFirst file.staticSymbols name s

theorem find?_eq_some_iff_isFirst {symbols : List NamedSymbol} {s : NamedSymbol} :
    symbols.find? (fun t => t.name == name) = some s ↔ IsFirst symbols name s := by
  rw [List.find?_eq_some_iff_append]
  simp only [beq_iff_eq, Bool.not_eq_true', beq_eq_false_iff_ne, IsFirst]
  constructor
  · intro ⟨hname, before, after, hsplit, hbefore⟩
    exact ⟨before, after, hsplit, hname, hbefore⟩
  · intro ⟨before, after, hsplit, hname, hbefore⟩
    exact ⟨hname, before, after, hsplit, hbefore⟩

theorem find?_eq_some_iff_names {s : NamedSymbol} :
    file.find? name = some s ↔ file.Names name s := by
  rw [File.find?, List.find?_append, Option.or_eq_some_iff, find?_eq_some_iff_isFirst,
    find?_eq_some_iff_isFirst, List.find?_eq_none]
  simp only [beq_iff_eq]
  rfl

theorem range?_eq_some_iff (hfile : file.InWords) {fileLength : Nat}
    (hlength : fileLength < 2 ^ 64) :
    file.range? name fileLength = some (start, stop) ↔
      ∃ s, file.Names name s ∧ IsSoundUpTo file.segments s.value ∧
        PlacedAt file.segments s.value start ∧ start < fileLength ∧
        stop = stopOf start s.size fileLength := by
  simp only [← find?_eq_some_iff_names]
  constructor
  · intro h
    cases hfind : file.find? name with
    | none =>
      rw [range?_of_find?_eq_none hfind] at h
      cases h
    | some s =>
      have hs := hfile.symbols s (List.mem_of_find?_eq_some hfind)
      rw [range?_of_find?_eq_some hfind] at h
      obtain ⟨place, hplace, hrange⟩ := Option.bind_eq_some_iff.1 h
      obtain ⟨hsound, hplaced, -⟩ := (dataOffset?_eq_some_iff hs.value).1 hplace
      split at hrange
      · cases hrange
      · cases hrange
        exact ⟨s, rfl, hsound, hplaced, by omega, rfl⟩
  · intro ⟨s, hfind, hsound, hplaced, hstart, hstop⟩
    have hs := hfile.symbols s (List.mem_of_find?_eq_some hfind)
    have hplace := (dataOffset?_eq_some_iff hs.value).2 ⟨hsound, hplaced, by omega⟩
    rw [range?_of_find?_eq_some hfind, hplace, Option.bind_some, if_neg (by omega), hstop]

/-- **A range that is found lies inside the file.** Let the numbers of a file be any words, as they
are in every file that is read. A symbol has the range that starts at the place of its value, in the
first segment that holds it, and that ends with its size or with the file: the first dynamic symbol
of the name counts, and a static one only without it. There is no range if a segment on the way is
forged, or if the start is behind the file. Every range is some bytes of the file. In words of 64
bits the same comes out, and no difference is below zero. -/
theorem range?_inside_file (hfile : file.InWords) (name : List UInt8) (fileLength : UInt64) :
    (∀ start stop, file.range? name fileLength.toNat = some (start, stop) ↔
      ∃ s, file.Names name s ∧ IsSoundUpTo file.segments s.value ∧
        PlacedAt file.segments s.value start ∧ start < fileLength.toNat ∧
        stop = stopOf start s.size fileLength.toNat) ∧
    (∀ start stop, file.range? name fileLength.toNat = some (start, stop) →
      start < stop ∧ stop ≤ fileLength.toNat ∧
      ∀ bytes : Bytes, bytes.size = fileLength.toNat →
        (bytes.slice start stop).size = stop - start) ∧
    file.rangeInWords name fileLength =
      .ok ((file.range? name fileLength.toNat).map fun r => (r.1.toUInt64, r.2.toUInt64)) ∧
    ∀ bytes other, File.ofBytes? bytes = some other → other.InWords := by
  have hiff (start stop : Nat) : file.range? name fileLength.toNat = some (start, stop) ↔ _ :=
    range?_eq_some_iff hfile fileLength.toNat_lt
  refine ⟨hiff, fun start stop h => ?_, rangeInWords_eq hfile fileLength,
    fun bytes other => inWords_of_ofBytes?⟩
  obtain ⟨s, -, -, -, hstart, rfl⟩ := (hiff start stop).1 h
  obtain ⟨hlt, hle⟩ := stopOf_bounds s.size hstart
  refine ⟨hlt, hle, fun bytes hbytes => ?_⟩
  rw [Bytes.slice, Array.size_extract, hbytes, Nat.min_eq_left hle]

/-- A file with the symbol in both tables. Of the segments around its address the first is not
loaded, and the last one is forged. -/
def forgedTail : File where
  segments := [
    { kind := loadSegment, offset := 0, address := 0x1000, fileSize := 0x100, memorySize := 0x100 },
    { kind := dynamicSegment, offset := 0, address := 0x8000, fileSize := 0x400,
      memorySize := 0x400 },
    { kind := loadSegment, offset := 0x200, address := 0x8000, fileSize := 0x400,
      memorySize := 0x400 },
    { kind := loadSegment, offset := 0, address := 0x8000, fileSize := 0xffffffffffffffff,
      memorySize := 0 }]
  dynamicSymbols := [
    { name := asciiBytes "oatlastword", value := 0, size := 4 },
    { name := Oat.symbolName, value := 0x8010, size := 0xffffffffffffffff }]
  staticSymbols := [{ name := Oat.symbolName, value := 0x20, size := 0 }]

theorem range?_inside_file_forgedTail :
    forgedTail.InWords ∧ forgedTail.range? Oat.symbolName 0x300 = some (0x210, 0x300) ∧
    forgedTail.rangeInWords Oat.symbolName 0x300 = .ok (some (0x210, 0x300)) ∧
    (Bytes.slice (Array.replicate 0x300 0) 0x210 0x300).size = 0xf0 := by
  have hwords : forgedTail.InWords := ⟨by decide, by decide⟩
  obtain ⟨-, hbounds, hinwords, -⟩ := range?_inside_file hwords Oat.symbolName 0x300
  have hrange : forgedTail.range? Oat.symbolName (0x300 : UInt64).toNat = some (0x210, 0x300) := by
    decide
  refine ⟨hwords, hrange, ?_, ?_⟩
  · rw [hinwords, hrange]
    rfl
  · exact (hbounds _ _ hrange).2.2 _ Array.size_replicate

end DalvikLinkage.Elf
