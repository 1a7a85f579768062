import DalvikLinkage.ClassPath.Session
import DalvikLinkage.Container.Opening
import DalvikLinkage.Proofs.Container.Multidex

/-!
# The two views of a container

A container lists the names of its entries, and it hands out an entry to whoever asks for a name.
The two should agree: just the listed names are answered, each by the entry of that name. Files that
are an image, wrap one or come from the runtime keep their entries in a list and look for the name
that is asked for. An archive looks for its rank instead, and so it also answers to other spellings
of a number that it lists: to `classes02.dex` with the entry `classes2.dex`.

Results:
* `answersAt_of_find?`: looking for the name itself keeps the two views together;
* `entryName_injective`, `map_name_scanImages`: the images of the runtime have different names;
* `answersAt_ofRanked_iff`: which names an archive answers rightly;
* `openContainer_cases`: what can be opened is an archive, or its two views agree on all names;
* `answersAt_iff`: the names on which the views of an opened container agree.
-/
namespace DalvikLinkage

open EntryRank

namespace Container

/-- The two views agree on a name: it is answered if and only if it is listed, and only by an entry
of this name. -/
structure AnswersAt (c : Container) (name : String) : Prop where
  isSome_iff : (c.entry? name).isSome ↔ name ∈ c.entryNames
  name_eq : ∀ e, c.entry? name = some e → e.name = name

variable {c : Container} {name : String}

theorem answersAt_of_find? {entries : List Entry} (hnames : c.entryNames = entries.map (·.name))
    (hentry : c.entry? name = entries.find? (·.name == name)) : c.AnswersAt name := by
  constructor
  · rw [hentry, hnames, List.find?_isSome, List.mem_map]
    simp only [beq_iff_eq]
  · intro e he
    rw [hentry] at he
    simpa using List.find?_some he

theorem answersAt_ofOption (e : Option Entry) (name : String) : (ofOption e).AnswersAt name := by
  have hentry : Container.entry? (ofOption e) name = e.toList.find? (·.name == name) := by
    cases e with
    | none => rfl
    | some e => simp only [ofOption, Option.filter_some, Option.toList_some, List.find?_singleton]
  exact answersAt_of_find? rfl hentry

/-- All entries can be had if the listed names are answered. -/
theorem entries_eq_ok (h : ∀ name ∈ c.entryNames, c.AnswersAt name) :
    ∃ entries, c.entries = .ok entries ∧ entries.map (·.name) = c.entryNames := by
  have hfound : ∀ name ∈ c.entryNames, ∃ e, c.entry? name = some e ∧ e.name = name := by
    intro name hname
    obtain ⟨e, he⟩ := Option.isSome_iff_exists.1 ((h name hname).isSome_iff.2 hname)
    exact ⟨e, he, (h name hname).name_eq e he⟩
  rw [entries]
  generalize c.entryNames = names at hfound
  induction names with
  | nil => exact ⟨[], rfl, rfl⟩
  | cons name names ih =>
    obtain ⟨e, he, hname⟩ := hfound name List.mem_cons_self
    obtain ⟨rest, hrest, hnames⟩ := ih fun n hn => hfound n (List.mem_cons_of_mem _ hn)
    refine ⟨e :: rest, ?_, by rw [List.map_cons, hname, hnames]⟩
    rw [List.mapM_cons, hrest, he]
    rfl

end Container

/-! ## Images of the runtime -/

namespace Oat

/-- What the name of the image with that index has between `classes` and `.dex`. -/
def numeral (index : Nat) : List Char :=
  if index = 0 then [] else Nat.toDigits 10 (index + 1)

theorem toList_entryName (index : Nat) :
    (entryName index).toList = "classes".toList ++ numeral index ++ ".dex".toList := by
  unfold entryName numeral
  split
  · rfl
  · rw [String.toList_append, String.toList_append, Nat.toString_eq_repr, Nat.toList_repr]

theorem entryName_injective {i j : Nat} (h : entryName i = entryName j) : i = j := by
  have hvalue : ∀ n, Nat.ofDigitChars 10 (numeral n) 0 = if n = 0 then 0 else n + 1 := by
    intro n
    unfold numeral
    split
    · rfl
    · exact Nat.ofDigitChars_ten_toDigits
  have hchars := congrArg String.toList h
  rw [toList_entryName, toList_entryName, List.append_left_inj, List.append_right_inj] at hchars
  have hij := congrArg (Nat.ofDigitChars 10 · 0) hchars
  simp only [hvalue] at hij
  split at hij <;> split at hij <;> omega

theorem map_name_scanImages (oat : Bytes) (count index offset : Nat) :
    (scanImages oat count index offset).map (·.name) =
      (List.range' index (scanImages oat count index offset).length).map entryName := by
  fun_induction scanImages oat count index offset with
  | case1 index offset h hle length hl hbounds ih =>
    rw [List.map_cons, List.length_cons, List.range'_succ, List.map_cons, ih]
  | case2 index offset h hle hl ih => exact ih
  | case3 => rfl

theorem nodup_name_scanImages (oat : Bytes) (count index offset : Nat) :
    ((scanImages oat count index offset).map (·.name)).Nodup := by
  rw [map_name_scanImages]
  exact List.Nodup.map (fun _ _ h => entryName_injective h) List.nodup_range'

theorem exists_scanImages_of_ofBytes {oat : Bytes} {contents : Contents}
    (h : (ofBytes oat).outcome = .ok contents) :
    ∃ count offset, contents.entries = scanImages oat count 0 offset := by
  obtain ⟨⟨count, _⟩, -, h⟩ := Logged.outcome_bind_eq_ok_iff.1 h
  obtain ⟨_, -, h⟩ := Logged.outcome_bind_eq_ok_iff.1 h
  cases h
  exact ⟨_, _, rfl⟩

theorem nodup_name_of_ofElf {path : Path} {bytes : Bytes} {contents : Contents}
    (h : (ofElf path bytes).outcome = .ok contents) : (contents.entries.map (·.name)).Nodup := by
  unfold ofElf at h
  split at h
  · cases h
  · split at h
    · cases h
    · dsimp only at h
      split at h
      · obtain ⟨count, offset, hentries⟩ :=
          exists_scanImages_of_ofBytes (Logged.outcome_mapError_eq_ok_iff.1 h)
        rw [hentries]
        exact nodup_name_scanImages _ count 0 offset
      · cases h

end Oat

/-! ## Archives -/

namespace Container

variable {images : List (String × Bytes)} {listed asked : String} {e : Entry}

theorem mem_rankEntries_of_mem_entryNames (himages : ∀ f ∈ images, isImage f.2 = true)
    (h : listed ∈ (ofRanked (rankEntries images)).entryNames) :
    ∃ e, e.name = listed ∧ (ofName listed, e) ∈ rankEntries images := by
  obtain ⟨x, hx, rfl⟩ := List.mem_map.1 h
  obtain ⟨f, -, rfl⟩ := List.mem_map.1 (mem_of_mem_rankEntries himages hx)
  exact ⟨⟨f.1, f.2⟩, rfl, hx⟩

/-- What is handed out has the rank of the name that was asked for. -/
theorem ofName_of_entry?_eq_some (himages : ∀ f ∈ images, isImage f.2 = true)
    (h : Container.entry? (ofRanked (rankEntries images)) asked = some e) :
    e.name ∈ (ofRanked (rankEntries images)).entryNames ∧ ofName e.name = ofName asked := by
  obtain ⟨x, hx, rfl⟩ := Option.map_eq_some_iff.1 h
  have hmem := List.mem_of_find?_eq_some hx
  have hrank : x.1 = ofName asked := by simpa using List.find?_some hx
  obtain ⟨f, -, rfl⟩ := List.mem_map.1 (mem_of_mem_rankEntries himages hmem)
  exact ⟨List.mem_map_of_mem hmem, hrank⟩

theorem isSome_entry?_of_ofName_eq (himages : ∀ f ∈ images, isImage f.2 = true)
    (h : listed ∈ (ofRanked (rankEntries images)).entryNames)
    (hrank : ofName listed = ofName asked) :
    (Container.entry? (ofRanked (rankEntries images)) asked).isSome := by
  obtain ⟨e, -, he⟩ := mem_rankEntries_of_mem_entryNames himages h
  rw [ofRanked, Option.isSome_map, List.find?_isSome]
  exact ⟨_, he, beq_iff_eq.2 hrank⟩

theorem nodup_entryNames_ofRanked (himages : ∀ f ∈ images, isImage f.2 = true) :
    ((ofRanked (rankEntries images)).entryNames.map ofName).Nodup := by
  rw [map_ofName_entryNames himages]
  exact (ascending_rankEntries himages).nodup_ranks

theorem answersAt_ofRanked_iff (himages : ∀ f ∈ images, isImage f.2 = true) :
    (ofRanked (rankEntries images)).AnswersAt asked ↔
      ∀ listed ∈ (ofRanked (rankEntries images)).entryNames,
        ofName listed = ofName asked → listed = asked := by
  constructor
  · intro h listed hlisted hrank
    have hsome := isSome_entry?_of_ofName_eq himages hlisted hrank
    exact List.inj_on_of_nodup_map (nodup_entryNames_ofRanked himages) hlisted
      (h.isSome_iff.1 hsome) hrank
  · intro h
    constructor
    · refine ⟨fun hsome => ?_, fun hasked => isSome_entry?_of_ofName_eq himages hasked rfl⟩
      obtain ⟨e, he⟩ := Option.isSome_iff_exists.1 hsome
      obtain ⟨hlisted, hrank⟩ := ofName_of_entry?_eq_some himages he
      rwa [h _ hlisted hrank] at hlisted
    · intro e he
      obtain ⟨hlisted, hrank⟩ := ofName_of_entry?_eq_some himages he
      exact h _ hlisted hrank

end Container

theorem multidex_eq_ok {path : Path} {bytes : Bytes} {c : Container}
    (h : multidex path bytes = .ok c) :
    ∃ images, (∀ f ∈ images, isImage f.2 = true) ∧ c = Container.ofRanked (rankEntries images) := by
  unfold multidex at h
  split at h
  · cases h
  · next members hmembers =>
    cases hfiles : archiveFiles path bytes members with
    | error e => rw [hfiles] at h; cases h
    | ok files =>
      rw [hfiles] at h
      cases h
      refine ⟨files.filter fun f => isImage f.2, fun f hf => (List.mem_filter.1 hf).2, ?_⟩
      rw [rankEntries_filter]

/-! ## Whatever can be opened -/

/-- The bytes start like an archive, or like one without members. -/
def isArchive (bytes : Bytes) : Bool :=
  bytes.hasAt 0 [0x50, 0x4b, 0x03, 0x04] || bytes.hasAt 0 [0x50, 0x4b, 0x05, 0x06]

theorem isArchive_eq_false_of_hasAt {bytes : Bytes} {b : UInt8} {rest : List UInt8}
    (h : bytes.hasAt 0 (b :: rest) = true) (hb : b ≠ 0x50) : isArchive bytes = false := by
  have hfirst : bytes[0]? = some b := by
    simpa using (Bool.and_eq_true_iff.1 h).1
  simp [isArchive, Bytes.hasAt, hfirst, hb]

variable {path : Path} {name : String} {profile : Profile} {bytes : Bytes} {c : Container}

theorem openContainer_cases (h : (openContainer path name profile bytes).outcome = .ok c) :
    (isArchive bytes = false ∧ c.entryNames.Nodup ∧ ∀ asked, c.AnswersAt asked) ∨
    (isArchive bytes = true ∧ ∃ images, (∀ f ∈ images, isImage f.2 = true) ∧
      c = Container.ofRanked (rankEntries images)) := by
  unfold openContainer at h
  split at h
  · next himage =>
    cases h
    have hmagic : bytes.hasAt 0 [0x64, 0x65, 0x78, 0x0a] = true := by
      simp only [isImage, isImageAt, Bool.and_eq_true] at himage
      exact himage.1.1.1.1
    exact .inl ⟨isArchive_eq_false_of_hasAt hmagic (by decide), List.nodup_singleton _,
      Container.answersAt_ofOption _⟩
  · split at h
    · next hmagic =>
      left
      refine ⟨isArchive_eq_false_of_hasAt hmagic (by decide), ?_⟩
      split at h
      · next entry after hwrapped =>
        cases h
        refine ⟨?_, Container.answersAt_ofOption entry⟩
        cases entry with
        | none => exact List.nodup_nil
        | some e => exact List.nodup_singleton e.name
      · cases h
    · split at h
      · next harchive =>
        right
        refine ⟨harchive, ?_⟩
        split at h
        · cases h
        · next archive hopened =>
          cases h
          exact multidex_eq_ok hopened
      · next harchive =>
        left
        refine ⟨Bool.not_eq_true _ ▸ harchive, ?_⟩
        split at h
        · obtain ⟨contents, hcontents, h⟩ := Logged.outcome_bind_eq_ok_iff.1 h
          cases h
          exact ⟨Oat.nodup_name_of_ofElf hcontents, fun asked =>
            Container.answersAt_of_find? rfl rfl⟩
        · cases h

theorem answersAt_of_mem (h : (openContainer path name profile bytes).outcome = .ok c)
    {listed : String} (hlisted : listed ∈ c.entryNames) : c.AnswersAt listed := by
  rcases openContainer_cases h with ⟨-, -, hanswers⟩ | ⟨-, images, himages, rfl⟩
  · exact hanswers listed
  · have hnodup := Container.nodup_entryNames_ofRanked himages
    refine (Container.answersAt_ofRanked_iff himages).2 fun other hother hrank => ?_
    exact List.inj_on_of_nodup_map hnodup hother hlisted hrank

/-- **The two views of an opened container.** Whatever file is opened, no name is listed twice, and
every listed entry can be had, so its loading can only fail if nothing is listed. Which names are
answered rightly depends on the kind of the file. An archive errs on just those names that have the
number of another name that it lists; all other containers answer all names rightly. -/
theorem answersAt_iff (h : (openContainer path name profile bytes).outcome = .ok c) :
    c.entryNames.Nodup ∧
    (∃ entries, c.entries = .ok entries ∧ entries.map (·.name) = c.entryNames) ∧
    (∀ p e, ClassPath.entriesOf p c = .error e → e = .noDexEntries p) ∧
    ∀ asked, c.AnswersAt asked ↔
      (isArchive bytes = true → ∀ listed ∈ c.entryNames, ∀ n,
        Numbered listed n → Numbered asked n → listed = asked) := by
  obtain ⟨entries, hentries, hnames⟩ := Container.entries_eq_ok fun _ => answersAt_of_mem h
  refine ⟨?_, ⟨entries, hentries, hnames⟩, fun p e he => ?_, fun asked => ?_⟩
  · rcases openContainer_cases h with ⟨-, hnodup, -⟩ | ⟨-, images, himages, rfl⟩
    · exact hnodup
    · exact (Container.nodup_entryNames_ofRanked himages).of_map
  · rw [ClassPath.entriesOf, hentries] at he
    split at he
    · cases he
      rfl
    · cases he
  · rcases openContainer_cases h with ⟨hkind, -, hanswers⟩ | ⟨hkind, images, himages, rfl⟩
    · refine iff_of_true (hanswers asked) fun harchive => ?_
      rw [hkind] at harchive
      cases harchive
    · rw [Container.answersAt_ofRanked_iff himages, imp_iff_right hkind]
      refine forall₂_congr fun listed _ => ?_
      rw [ofName_eq_ofName_iff]
      constructor
      · intro h n hlisted hasked
        exact h (.inr ⟨n, hlisted, hasked⟩)
      · rintro h (heq | ⟨n, hlisted, hasked⟩)
        · exact heq
        · exact h n hlisted hasked

/-- An archive with one stored image, `classes2.dex`: the file, the directory and the end record. -/
def secondImageArchive : Bytes :=
  #[80, 75, 3, 4, 20, 0, 0, 0, 0, 0, 0, 0, 33, 0, 185, 228, 251, 49, 8, 0, 0, 0, 8, 0, 0, 0, 12,
      0, 0, 0, 99, 108, 97, 115, 115, 101, 115, 50, 46, 100, 101, 120, 100, 101, 120, 10, 48, 51,
      53, 0,
    80, 75, 1, 2, 20, 0, 20, 0, 0, 0, 0, 0, 0, 0, 33, 0, 185, 228, 251, 49, 8, 0, 0, 0, 8, 0, 0,
      0, 12, 0, 0, 0, 0, 0, 0, 0, 0, 0, 0, 0, 0, 0, 0, 0, 0, 0, 99, 108, 97, 115, 115, 101, 115,
      50, 46, 100, 101, 120,
    80, 75, 5, 6, 0, 0, 0, 0, 1, 0, 1, 0, 58, 0, 0, 0, 50, 0, 0, 0, 0, 0]

theorem openContainer_secondImageArchive :
    ∃ c, (openContainer ⟨"app.apk"⟩ "app.apk" default secondImageArchive).outcome = .ok c ∧
      c.entryNames = ["classes2.dex"] ∧
      c.entry? "classes02.dex" =
        some ⟨"classes2.dex", #[0x64, 0x65, 0x78, 0x0a, 0x30, 0x33, 0x35, 0x00]⟩ := by
  let outcome := (openContainer ⟨"app.apk"⟩ "app.apk" default secondImageArchive).outcome
  have hviews : outcome.toOption.map (fun c => (c.entryNames, c.entry? "classes02.dex")) =
      some (["classes2.dex"],
        some ⟨"classes2.dex", #[0x64, 0x65, 0x78, 0x0a, 0x30, 0x33, 0x35, 0x00]⟩) := by
    decide +kernel
  cases hopened : outcome with
  | error e => rw [hopened] at hviews; cases hviews
  | ok c =>
    rw [hopened] at hviews
    obtain ⟨hnames, hentry⟩ := Prod.mk.inj (Option.some.inj hviews)
    exact ⟨c, hopened, hnames, hentry⟩

theorem answersAt_iff_secondImage :
    ∃ c, (openContainer ⟨"app.apk"⟩ "app.apk" default secondImageArchive).outcome = .ok c ∧
      c.entryNames = ["classes2.dex"] ∧ c.AnswersAt "classes.dex" ∧
      ¬c.AnswersAt "classes02.dex" := by
  obtain ⟨c, hc, hnames, -⟩ := openContainer_secondImageArchive
  obtain ⟨-, -, -, hanswers⟩ := answersAt_iff hc
  refine ⟨c, hc, hnames, (hanswers _).2 ?_, fun h => ?_⟩
  · intro _ listed hlisted n hn hasked
    rw [hnames, List.mem_singleton] at hlisted
    rw [hlisted] at hn
    exact absurd (ofName_eq_ofName_iff.2 (.inr ⟨n, hn, hasked⟩)) (by decide)
  · have htwo : Numbered "classes2.dex" 2 := numbered_iff.2 ⟨2, by decide, rfl⟩
    have hother : Numbered "classes02.dex" 2 := numbered_iff.2 ⟨2, by decide, rfl⟩
    have hlisted : "classes2.dex" ∈ c.entryNames := hnames ▸ List.mem_singleton_self _
    exact absurd ((hanswers _).1 h (by decide +kernel) _ hlisted 2 htwo hother) (by decide)

/-- An archive that lists nothing but `classes2.dex` hands this entry out for `classes02.dex`. -/
theorem not_answersAt_otherSpelling :
    ∃ c, (openContainer ⟨"app.apk"⟩ "app.apk" default secondImageArchive).outcome = .ok c ∧
      "classes02.dex" ∉ c.entryNames ∧
      (∃ e, c.entry? "classes02.dex" = some e ∧ e.name = "classes2.dex") ∧
      ¬c.AnswersAt "classes02.dex" := by
  obtain ⟨c, hc, hnames, hentry⟩ := openContainer_secondImageArchive
  refine ⟨c, hc, by rw [hnames]; decide, ⟨_, hentry, rfl⟩, fun h => ?_⟩
  exact absurd (h.name_eq _ hentry) (by decide)

end DalvikLinkage
