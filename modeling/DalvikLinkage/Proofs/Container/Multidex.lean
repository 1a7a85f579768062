import DalvikLinkage.Proofs.Container.Ranks
import Mathlib.Data.List.Nodup
import Mathlib.Data.List.Perm.Basic

/-!
# What an archive of images holds

An archive is taken as the list of the files at its top level. Its container should hold each of
them that is an image: under its name, once, and in the order of loading, in whatever order the
archive has them. Since the images are kept by their ranks and not by their names, that is so
exactly if no two of them have one number; of two that do, the container forgets the earlier one.

Results:
* `archiveFiles_eq_ok`: the images are looked for among the files at the top level;
* `mem_of_mem_rankEntries`, `perm_rankEntries`: nothing is kept but images, and all of them are if
  their ranks differ;
* `holds_images_iff`: when the container of an archive holds its images.
-/
namespace DalvikLinkage

open EntryRank

/-! ## The files of an archive -/

/-- The name ends like that of an image. -/
def hasImageName (name : String) : Bool :=
  ".dex".toList.isSuffixOf name.toList

/-- The images among the files. -/
def imagesOf (files : List (String × Bytes)) : List (String × Bytes) :=
  files.filter fun f => hasImageName f.1 && isImage f.2

/-- The name of a member if it is at the top level: a path of one name. -/
def plainName? (name : String) : Option String :=
  if name.toList.contains '\x00' then none
  else match (Path.mk name).components with
    | [.name n] => some n
    | _ => none

/-- The files at the top level of an archive with their contents, in the order of the archive; none
if some member cannot be read. -/
def topLevelFiles? (bytes : Bytes) : List Archive.Member → Option (List (String × Bytes))
  | [] => some []
  | m :: rest => do
    let data ← m.packed? bytes
    match if m.isDirectory then none else plainName? m.name with
    | none => topLevelFiles? bytes rest
    | some name =>
      let contents ← (m.unpack data).toOption
      return (name, contents) :: (← topLevelFiles? bytes rest)

theorem topLevelName?_eq (name : String) :
    topLevelName? name = (plainName? name).filter hasImageName := by
  unfold topLevelName? plainName?
  cases name.toList.contains '\x00' with
  | true => rfl
  | false =>
    rw [if_neg Bool.false_ne_true, if_neg Bool.false_ne_true]
    cases (Path.mk name).components with
    | nil => rfl
    | cons first rest => cases rest <;> cases first <;> rfl

theorem archiveFiles_eq_ok {path : Path} {bytes : Bytes} {members : List Archive.Member}
    {files : List (String × Bytes)} (h : topLevelFiles? bytes members = some files) :
    archiveFiles path bytes members = .ok (files.filter fun f => hasImageName f.1) := by
  induction members generalizing files with
  | nil => cases h; rfl
  | cons m members ih =>
    rw [topLevelFiles?] at h
    obtain ⟨data, hdata, h⟩ := Option.bind_eq_some_iff.1 h
    rw [archiveFiles, hdata]
    dsimp only
    cases hdirectory : m.isDirectory with
    | true =>
      rw [hdirectory, if_pos rfl] at h
      rw [if_pos rfl]
      exact ih h
    | false =>
      rw [hdirectory, if_neg Bool.false_ne_true] at h
      rw [if_neg Bool.false_ne_true, topLevelName?_eq]
      cases hplain : plainName? m.name with
      | none => rw [hplain] at h; exact ih h
      | some name =>
        rw [hplain] at h
        obtain ⟨contents, hcontents, h⟩ := Option.bind_eq_some_iff.1 h
        obtain ⟨rest, hrest, h⟩ := Option.bind_eq_some_iff.1 h
        cases h
        rw [Option.filter_some]
        cases hname : hasImageName name with
        | false =>
          rw [if_neg Bool.false_ne_true, List.filter_cons_of_neg (by simp [hname])]
          exact ih hrest
        | true =>
          have hunpack : m.unpack data = .ok contents := by
            cases hu : m.unpack data with
            | error e => rw [hu] at hcontents; cases hcontents
            | ok b => rw [hu] at hcontents; cases hcontents; rfl
          have hkept : ((name, contents) :: rest).filter (fun f => hasImageName f.1) =
              (name, contents) :: rest.filter fun f => hasImageName f.1 :=
            List.filter_cons_of_pos hname
          rw [if_pos rfl, hkept, hunpack]
          exact congrArg (Except.map _) (ih hrest)

/-! ## Entries by their ranks -/

/-- The file as an entry at its rank. -/
def rankedEntry (f : String × Bytes) : EntryRank × Entry :=
  (ofName f.1, ⟨f.1, f.2⟩)

variable {files images : List (String × Bytes)} {f : String × Bytes} {x : EntryRank × Entry}

theorem rankEntries_filter (files : List (String × Bytes)) :
    rankEntries (files.filter fun f => isImage f.2) = rankEntries files := by
  rw [rankEntries, List.foldl_filter, rankEntries]
  congr
  funext ranked ⟨name, data⟩
  cases h : isImage data <;> simp [h]

theorem rankEntries_append (hf : isImage f.2 = true) :
    rankEntries (images ++ [f]) = insertRanked (ofName f.1) ⟨f.1, f.2⟩ (rankEntries images) := by
  rw [rankEntries, List.foldl_append, List.foldl_cons, List.foldl_nil, ← rankEntries]
  exact if_pos hf

theorem ascending_rankEntries (himages : ∀ f ∈ images, isImage f.2 = true) :
    Ascending (rankEntries images) := by
  induction images using List.reverseRecOn with
  | nil => exact List.Pairwise.nil
  | append_singleton images f ih =>
    rw [List.forall_mem_append] at himages
    rw [rankEntries_append (himages.2 f List.mem_cons_self)]
    exact ascending_insertRanked (ih himages.1)

theorem mem_of_mem_rankEntries (himages : ∀ f ∈ images, isImage f.2 = true)
    (h : x ∈ rankEntries images) : x ∈ images.map rankedEntry := by
  induction images using List.reverseRecOn with
  | nil => cases h
  | append_singleton images f ih =>
    rw [List.forall_mem_append] at himages
    rw [rankEntries_append (himages.2 f List.mem_cons_self),
      mem_insertRanked_iff (ascending_rankEntries himages.1)] at h
    rw [List.map_append, List.mem_append]
    rcases h with hx | ⟨hx, -⟩
    · exact .inr (List.mem_singleton.2 hx)
    · exact .inl (ih himages.1 hx)

/-- Images of different ranks do not take each other's places. -/
theorem mem_rankEntries (himages : ∀ f ∈ images, isImage f.2 = true)
    (hranks : (images.map (ofName ·.1)).Nodup) (h : x ∈ images.map rankedEntry) :
    x ∈ rankEntries images := by
  induction images using List.reverseRecOn with
  | nil => cases h
  | append_singleton images f ih =>
    rw [List.forall_mem_append] at himages
    rw [List.map_append] at hranks h
    obtain ⟨hbefore, -, hne⟩ := List.nodup_append.1 hranks
    rw [rankEntries_append (himages.2 f List.mem_cons_self),
      mem_insertRanked_iff (ascending_rankEntries himages.1)]
    rcases List.mem_append.1 h with hx | hx
    · obtain ⟨g, hg, rfl⟩ := List.mem_map.1 hx
      exact .inr ⟨ih himages.1 hbefore hx, hne _ (List.mem_map_of_mem hg) _ List.mem_cons_self⟩
    · exact .inl (List.mem_singleton.1 hx)

theorem perm_rankEntries (himages : ∀ f ∈ images, isImage f.2 = true)
    (hranks : (images.map (ofName ·.1)).Nodup) :
    (rankEntries images).Perm (images.map rankedEntry) := by
  refine (List.perm_ext_iff_of_nodup ?_ ?_).2 fun x =>
    ⟨mem_of_mem_rankEntries himages, mem_rankEntries himages hranks⟩
  · exact List.Nodup.of_map _ (ascending_rankEntries himages).nodup_ranks
  · refine List.Nodup.of_map Prod.fst ?_
    rwa [List.map_map]

/-! ## The container of an archive -/

/-- The container lists just these images, each of them once, in the order of loading, and hands out
each under its name. -/
structure Container.Holds (c : Container) (images : List (String × Bytes)) : Prop where
  names : c.entryNames.Perm (images.map (·.1))
  order : c.entryNames.Pairwise LoadsBefore
  entries : ∀ f ∈ images, c.entry? f.1 = some ⟨f.1, f.2⟩

/-- Every entry is at the rank that its name gives it. -/
theorem map_ofName_entryNames (himages : ∀ f ∈ images, isImage f.2 = true) :
    (Container.ofRanked (rankEntries images)).entryNames.map ofName =
      (rankEntries images).map (·.1) := by
  rw [Container.ofRanked, List.map_map]
  refine List.map_congr_left fun x hx => ?_
  obtain ⟨f, -, rfl⟩ := List.mem_map.1 (mem_of_mem_rankEntries himages hx)
  rfl

theorem pairwise_entryNames (himages : ∀ f ∈ images, isImage f.2 = true) :
    (Container.ofRanked (rankEntries images)).entryNames.Pairwise LoadsBefore := by
  have hranks : ((rankEntries images).map (·.1)).Pairwise fun a b => compare a b = .lt :=
    List.pairwise_map.2 (ascending_rankEntries himages)
  rw [← map_ofName_entryNames himages, List.pairwise_map] at hranks
  exact hranks.imp compare_ofName_eq_lt_iff.1

theorem entry?_ofRanked (himages : ∀ f ∈ images, isImage f.2 = true)
    (h : rankedEntry f ∈ rankEntries images) :
    Container.entry? (Container.ofRanked (rankEntries images)) f.1 = some ⟨f.1, f.2⟩ := by
  have hnodup := (ascending_rankEntries himages).nodup_ranks
  simp only [Container.ofRanked]
  cases hfind : (rankEntries images).find? fun r => r.1 == ofName f.1 with
  | none =>
    have hno := List.find?_eq_none.1 hfind _ h
    exact absurd (beq_self_eq_true (ofName f.1)) hno
  | some x =>
    have hx : x.1 = ofName f.1 := by simpa using List.find?_some hfind
    obtain rfl : x = rankedEntry f :=
      List.inj_on_of_nodup_map hnodup (List.mem_of_find?_eq_some hfind) h hx
    rfl

theorem holds_iff_nodup (himages : ∀ f ∈ images, isImage f.2 = true) :
    (Container.ofRanked (rankEntries images)).Holds images ↔ (images.map (ofName ·.1)).Nodup := by
  constructor
  · intro h
    have hperm := h.names.map ofName
    rw [map_ofName_entryNames himages, List.map_map] at hperm
    exact hperm.nodup_iff.1 (ascending_rankEntries himages).nodup_ranks
  · intro hranks
    have hperm := perm_rankEntries himages hranks
    refine ⟨?_, pairwise_entryNames himages, fun f hf => ?_⟩
    · have hnames := hperm.map fun x => x.2.name
      rwa [List.map_map] at hnames
    · exact entry?_ofRanked himages (hperm.mem_iff.2 (List.mem_map_of_mem hf))

theorem nodup_ranks_iff (hnames : (images.map (·.1)).Nodup) :
    (images.map (ofName ·.1)).Nodup ↔
      ∀ f ∈ images, ∀ g ∈ images, ∀ n, Numbered f.1 n → Numbered g.1 n → f.1 = g.1 := by
  constructor
  · intro h f hf g hg n hfn hgn
    have hrank := ofName_eq_ofName_iff.2 (.inr ⟨n, hfn, hgn⟩)
    exact congrArg Prod.fst (List.inj_on_of_nodup_map h hf hg hrank)
  · intro h
    refine List.Nodup.map_on (fun f hf g hg hrank => ?_) (List.Nodup.of_map _ hnames)
    refine List.inj_on_of_nodup_map hnames hf hg ?_
    rcases ofName_eq_ofName_iff.1 hrank with heq | ⟨n, hfn, hgn⟩
    · exact heq
    · exact h f hf g hg n hfn hgn

/-- **The images of an archive.** Let these be the files at the top level of an archive, under
different names. Its container holds those of them that are images, each once and under its name, in
the order of loading, if and only if no two of them have one number: `classes2.dex` and
`classes02.dex` do. The order of the files in the archive does not matter. -/
theorem holds_images_iff (files : List (String × Bytes)) (hnames : (files.map (·.1)).Nodup) :
    let c := Container.ofRanked (rankEntries (files.filter fun f => hasImageName f.1))
    (∀ path bytes members, Archive.members? bytes = some members →
      topLevelFiles? bytes members = some files → multidex path bytes = .ok c) ∧
    (c.Holds (imagesOf files) ↔
      ∀ f ∈ imagesOf files, ∀ g ∈ imagesOf files, ∀ n,
        Numbered f.1 n → Numbered g.1 n → f.1 = g.1) := by
  intro c
  have hkept : rankEntries (files.filter fun f => hasImageName f.1) =
      rankEntries (imagesOf files) := by
    rw [← rankEntries_filter, List.filter_filter, imagesOf]
    simp only [Bool.and_comm]
  have himages : ∀ f ∈ imagesOf files, isImage f.2 = true := fun f hf =>
    (Bool.and_eq_true_iff.1 (List.mem_filter.1 hf).2).2
  refine ⟨fun path bytes members hmembers hfiles => ?_, ?_⟩
  · rw [multidex, hmembers]
    dsimp only
    rw [archiveFiles_eq_ok hfiles]
    rfl
  · have hsub : ((imagesOf files).map (·.1)).Nodup :=
      hnames.sublist (List.filter_sublist.map _)
    rw [← nodup_ranks_iff hsub, ← holds_iff_nodup himages, ← hkept]

/-- An archive of three stored images, in no order: the files, the directory and the end record. -/
def shuffledArchive : Bytes :=
  #[80, 75, 3, 4, 20, 0, 0, 0, 0, 0, 0, 0, 33, 0, 185, 228, 251, 49, 8, 0, 0, 0, 8, 0, 0, 0, 5, 0,
      0, 0, 97, 46, 100, 101, 120, 100, 101, 120, 10, 48, 51, 53, 0,
    80, 75, 3, 4, 20, 0, 0, 0, 0, 0, 0, 0, 33, 0, 185, 228, 251, 49, 8, 0, 0, 0, 8, 0, 0, 0, 12,
      0, 0, 0, 99, 108, 97, 115, 115, 101, 115, 50, 46, 100, 101, 120, 100, 101, 120, 10, 48, 51,
      53, 0,
    80, 75, 3, 4, 20, 0, 0, 0, 0, 0, 0, 0, 33, 0, 185, 228, 251, 49, 8, 0, 0, 0, 8, 0, 0, 0, 11,
      0, 0, 0, 99, 108, 97, 115, 115, 101, 115, 46, 100, 101, 120, 100, 101, 120, 10, 48, 51, 53,
      0,
    80, 75, 1, 2, 20, 0, 20, 0, 0, 0, 0, 0, 0, 0, 33, 0, 185, 228, 251, 49, 8, 0, 0, 0, 8, 0, 0,
      0, 5, 0, 0, 0, 0, 0, 0, 0, 0, 0, 0, 0, 0, 0, 0, 0, 0, 0, 97, 46, 100, 101, 120,
    80, 75, 1, 2, 20, 0, 20, 0, 0, 0, 0, 0, 0, 0, 33, 0, 185, 228, 251, 49, 8, 0, 0, 0, 8, 0, 0,
      0, 12, 0, 0, 0, 0, 0, 0, 0, 0, 0, 0, 0, 0, 0, 43, 0, 0, 0, 99, 108, 97, 115, 115, 101, 115,
      50, 46, 100, 101, 120,
    80, 75, 1, 2, 20, 0, 20, 0, 0, 0, 0, 0, 0, 0, 33, 0, 185, 228, 251, 49, 8, 0, 0, 0, 8, 0, 0,
      0, 11, 0, 0, 0, 0, 0, 0, 0, 0, 0, 0, 0, 0, 0, 93, 0, 0, 0, 99, 108, 97, 115, 115, 101, 115,
      46, 100, 101, 120,
    80, 75, 5, 6, 0, 0, 0, 0, 3, 0, 3, 0, 166, 0, 0, 0, 142, 0, 0, 0, 0, 0]

theorem holds_images_iff_shuffled :
    let image : Bytes := #[0x64, 0x65, 0x78, 0x0a, 0x30, 0x33, 0x35, 0x00]
    let files := [("a.dex", image), ("classes2.dex", image), ("classes.dex", image)]
    let c := Container.ofRanked (rankEntries (files.filter fun f => hasImageName f.1))
    (files.map (·.1)).Nodup ∧ multidex ⟨"app.apk"⟩ shuffledArchive = .ok c ∧
    c.Holds (imagesOf files) ∧ c.entryNames = ["classes.dex", "classes2.dex", "a.dex"] := by
  intro image files c
  have hnames : (files.map (·.1)).Nodup := by decide
  have hread : (Archive.members? shuffledArchive).bind (topLevelFiles? shuffledArchive) =
      some files := by
    decide +kernel
  obtain ⟨members, hmembers, hfiles⟩ := Option.bind_eq_some_iff.1 hread
  have hranks : ∀ f ∈ imagesOf files, ∀ g ∈ imagesOf files,
      ofName f.1 = ofName g.1 → f.1 = g.1 := by decide
  obtain ⟨hcontainer, hholds⟩ := holds_images_iff files hnames
  refine ⟨hnames, hcontainer _ _ members hmembers hfiles, hholds.2 ?_, by decide⟩
  intro f hf g hg n hfn hgn
  exact hranks f hf g hg (ofName_eq_ofName_iff.2 (.inr ⟨n, hfn, hgn⟩))

/-- Two images whose names have one number. -/
def twoOfOneNumber : List (String × Bytes) :=
  let image : Bytes := #[0x64, 0x65, 0x78, 0x0a, 0x30, 0x33, 0x35, 0x00]
  [("classes2.dex", image), ("classes02.dex", image)]

/-- Of two images whose names have one number the container holds only the later one. -/
theorem not_holds_twoOfOneNumber :
    let c := Container.ofRanked (rankEntries (twoOfOneNumber.filter fun f => hasImageName f.1))
    (twoOfOneNumber.map (·.1)).Nodup ∧ c.entryNames = ["classes02.dex"] ∧
    ¬c.Holds (imagesOf twoOfOneNumber) := by
  intro c
  have hnames : c.entryNames = ["classes02.dex"] := by decide
  refine ⟨by decide, hnames, fun h => ?_⟩
  have hlength := h.names.length_eq
  rw [hnames] at hlength
  exact absurd hlength (by decide)

end DalvikLinkage
