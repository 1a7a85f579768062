import DalvikLinkage.ClassPath.Resolution
import DalvikLinkage.Proofs.ClassPath.Dependencies
import DalvikLinkage.Proofs.Text.Reading

/-!
# The files that boot class path entries stand for

What an image lists is used in two ways. If the image is the input, its list is the boot class path,
with `.oat` for `.art` at the end of every entry; the directories in an entry are left to the search
for device paths. If the image is loaded with what it depends on, only the last name of an entry
counts: it is cut out first, and `.oat` is put for `.art` in it. Both come to one name, because the
end that is replaced has no separator in it, so a directory in front cannot be a part of it.

Results:
* `hasCodeIn_codeFile`, `leaf_eq_iff`: the two steps, said without the functions;
* `codeFile_inDirectory`, `IsLastName.codeFile`: they can be taken in either order;
* `separator_notMem_dependencyFileName`: no entry leads into another directory;
* `lastName_of_bootEntry`: both ways come to one name, and that name stands for itself.
-/
namespace DalvikLinkage.ClassPath

variable {host : Host} {profile : Profile} {input : Path} {c : Container} {s : Session}
  {entry file name : String} {i : Nat}

/-! ## The end of an entry -/

/-- The code of a boot class path entry is in that file: `.oat` stands for `.art` at its end, and
all else is the same. -/
inductive HasCodeIn (entry file : String) : Prop
  | image {stem : String} (hentry : entry = stem ++ ".art") (hfile : file = stem ++ ".oat")
  | itself (hentry : ∀ stem, entry ≠ stem ++ ".art") (hfile : file = entry)

theorem hasCodeIn_codeFile (entry : String) : HasCodeIn entry (codeFile entry) := by
  unfold codeFile
  split
  · next stem hcut =>
    refine .image (Text.withoutEnd?_toList_eq_some_iff.1 hcut) ?_
    rw [String.ofList_append, String.ofList_toList]
  · next hnone =>
    refine .itself (fun stem hentry => ?_) rfl
    have hcut : Text.withoutEnd? ".art".toList entry.toList = some stem.toList := by
      rw [Text.withoutEnd?_toList_eq_some_iff, String.ofList_toList, hentry]
    rw [hnone] at hcut
    cases hcut

/-- The file does not end in `.art`, also if the entry had it twice. -/
theorem HasCodeIn.ne_art (h : HasCodeIn entry file) (stem : String) : file ≠ stem ++ ".art" := by
  cases h with
  | image _ hfile =>
    intro hart
    rw [hfile, ← String.toList_inj, String.toList_append, String.toList_append] at hart
    have hlength : ".oat".toList.length = ".art".toList.length := by decide
    exact absurd (List.append_inj_right' hart hlength) (by decide)
  | itself hentry hfile =>
    rw [hfile]
    exact hentry stem

theorem codeFile_eq_self (h : ∀ stem, entry ≠ stem ++ ".art") : codeFile entry = entry := by
  cases hasCodeIn_codeFile entry with
  | image hentry _ => exact absurd hentry (h _)
  | itself _ hfile => exact hfile

theorem separator_notMem_codeFile (h : '/' ∉ entry.toList) : '/' ∉ (codeFile entry).toList := by
  cases hasCodeIn_codeFile entry with
  | @image stem hentry hfile =>
    rw [hentry, String.toList_append, List.mem_append, not_or] at h
    rw [hfile, String.toList_append, List.mem_append, not_or]
    exact ⟨h.1, by decide⟩
  | itself _ hfile => rwa [hfile]

/-- A directory in front stays what it is. -/
theorem codeFile_inDirectory (directory name : String) :
    codeFile (directory ++ "/" ++ name) = directory ++ "/" ++ codeFile name := by
  have hpath : (directory ++ "/" ++ name).toList = directory.toList ++ '/' :: name.toList := by
    simp
  have hart : '/' ∉ ".art".toList := by decide
  unfold codeFile
  rw [hpath, Text.withoutEnd?_append_cons hart]
  cases Text.withoutEnd? ".art".toList name.toList with
  | none => rfl
  | some stem => simp [← String.toList_inj]

/-! ## The last name of an entry -/

/-- The name is what follows the last separator of the entry, or all of it if there is none. -/
structure IsLastName (entry name : String) : Prop where
  no_separator : '/' ∉ name.toList
  behind : entry = name ∨ ∃ directory, entry = directory ++ "/" ++ name

theorem leaf_eq_iff : leaf entry = name ↔ IsLastName entry name := by
  rw [leaf, ← String.toList_inj, String.toList_ofList, Text.lastPiece_eq_iff, String.toList_inj]
  constructor
  · rintro ⟨hname, hentry | ⟨front, hentry⟩⟩
    · exact ⟨hname, .inl hentry⟩
    · exact ⟨hname, .inr ⟨String.ofList front, by simp [← String.toList_inj, hentry]⟩⟩
  · rintro ⟨hname, hentry | ⟨directory, rfl⟩⟩
    · exact ⟨hname, .inl hentry⟩
    · exact ⟨hname, .inr ⟨directory.toList, by simp⟩⟩

theorem isLastName_leaf (entry : String) : IsLastName entry (leaf entry) :=
  leaf_eq_iff.1 rfl

theorem leaf_eq_self (h : '/' ∉ entry.toList) : leaf entry = entry :=
  leaf_eq_iff.2 ⟨h, .inl rfl⟩

/-- The end of an entry is the end of its last name. -/
theorem IsLastName.codeFile (h : IsLastName entry name) :
    IsLastName (codeFile entry) (codeFile name) where
  no_separator := separator_notMem_codeFile h.no_separator
  behind := by
    rcases h.behind with rfl | ⟨directory, rfl⟩
    · exact .inl rfl
    · exact .inr ⟨directory, codeFile_inDirectory directory name⟩

/-! ## The name of a dependency -/

theorem isLastName_dependencyFileName (entry : String) :
    IsLastName (codeFile entry) (dependencyFileName entry) :=
  (isLastName_leaf entry).codeFile

theorem separator_notMem_dependencyFileName (entry : String) :
    '/' ∉ (dependencyFileName entry).toList :=
  (isLastName_dependencyFileName entry).no_separator

theorem dependencyFileName_ne_art (entry stem : String) :
    dependencyFileName entry ≠ stem ++ ".art" :=
  (hasCodeIn_codeFile (leaf entry)).ne_art stem

theorem dependencyFileName_dependencyFileName (entry : String) :
    dependencyFileName (dependencyFileName entry) = dependencyFileName entry := by
  have hleaf := leaf_eq_self (separator_notMem_dependencyFileName entry)
  rw [dependencyFileName, hleaf, codeFile_eq_self (dependencyFileName_ne_art entry)]

/-! ## The boot class path of the input -/

theorem getElem?_inputBootClassPath (hopen : (host.openContainer input).outcome = .ok c)
    (himage : c.isBootImage = true) (hlisted : c.bootClassPath[i]? = some entry) :
    (inputBootClassPath host profile input s).1.entries[i]? = some (codeFile entry) := by
  have hentries : c.bootClassPath.isEmpty = false := by
    rw [List.isEmpty_eq_false_iff]
    exact List.ne_nil_of_mem (List.mem_of_getElem? hlisted)
  have hboot : (inputBootClassPath host profile input s).1 = bootClassPathOf profile c := by
    rw [inputBootClassPath, openAt, hopen]
  rw [hboot, bootClassPathOf, himage, hentries]
  simp [hlisted]

/-- **Both ways to use an entry come to one name.** Whatever the entry is, every boot image that
lists it and is the input has the same file for it at that place of the boot class path, with `.oat`
for `.art` at the end. What follows the last separator there is the name under which the entry is
looked for next to an image. That name has no separator in it and does not end in `.art`, and it is
its own name. -/
theorem lastName_of_bootEntry (entry : String) :
    (∃ file, HasCodeIn entry file ∧ IsLastName file (dependencyFileName entry) ∧
      ∀ (host : Host) profile input s c (i : Nat), (host.openContainer input).outcome = .ok c →
        c.isBootImage = true → c.bootClassPath[i]? = some entry →
        (inputBootClassPath host profile input s).1.entries[i]? = some file) ∧
    '/' ∉ (dependencyFileName entry).toList ∧
    (∀ stem, dependencyFileName entry ≠ stem ++ ".art") ∧
    dependencyFileName (dependencyFileName entry) = dependencyFileName entry := by
  refine ⟨⟨codeFile entry, hasCodeIn_codeFile entry, isLastName_dependencyFileName entry, ?_⟩,
    separator_notMem_dependencyFileName entry, dependencyFileName_ne_art entry,
    dependencyFileName_dependencyFileName entry⟩
  intro host profile input s c i hopen himage hlisted
  exact getElem?_inputBootClassPath hopen himage hlisted

/-- An image that lists a bare `.art`, one that is there twice, and a directory. -/
def oddlyNamed : Host where
  identity p := p
  isFile _ := true
  isDirectory _ := false
  isPresent _ := true
  openContainer _ := Logged.value (imageOf "boot.dex" ["/system/.art", "core.art.art", "ext.art/"])

theorem lastName_of_bootEntry_bare :
    (inputBootClassPath oddlyNamed (Profile.ofApi 33) ⟨"boot.oat"⟩ {}).1.entries =
      ["/system/.oat", "core.art.oat", "ext.art/"] ∧
    dependencyFileName "/system/.art" = ".oat" ∧ IsLastName "/system/.oat" ".oat" := by
  have hentries : (inputBootClassPath oddlyNamed (Profile.ofApi 33) ⟨"boot.oat"⟩ {}).1.entries =
      ["/system/.oat", "core.art.oat", "ext.art/"] := by decide
  have hname : dependencyFileName "/system/.art" = ".oat" := by decide
  obtain ⟨⟨file, -, hlast, hlisted⟩, -⟩ := lastName_of_bootEntry "/system/.art"
  have hfirst := hlisted oddlyNamed (Profile.ofApi 33) ⟨"boot.oat"⟩ {} _ 0 rfl rfl rfl
  rw [hentries] at hfirst
  obtain rfl : "/system/.oat" = file := Option.some.inj hfirst
  rw [hname] at hlast
  exact ⟨hentries, hname, hlast⟩

end DalvikLinkage.ClassPath
