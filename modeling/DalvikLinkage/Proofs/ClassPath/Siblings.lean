import DalvikLinkage.ClassPath.LocalFiles
import DalvikLinkage.Proofs.ClassPath.EntryNames
import DalvikLinkage.Proofs.Path

/-!
# Where the siblings of an image are

What an image depends on is named by texts in the image, and whoever wrote it could write anything.
Only what follows the last separator of a text counts, so what is joined to the image's directory
has no separator in it. It is the name of a file, unless it is empty, `.` or `..`; these three lead
to the directory itself and to its parent. All that is asked of a path is whether something is
there, and that can be a directory. So loading stays next to the image as long as it comes to no
such text, or finds nothing there. Whatever the texts are, it goes nowhere else.

Results:
* `loadSiblings_of_reaches`: loading ends at an entry without a file, with an error that says so;
* `opened_loadSiblings`: nothing is opened but what is handed over to be loaded;
* `staysBeside_iff`: when loading stays next to the image, and where else it can go.
-/
namespace DalvikLinkage.ClassPath

open DalvikLinkage.Path (IsFileName)

variable {host : Host} {image path : Path} {first name : String} {names : List String}
  {s t u : Session}

/-! ## What is handed over -/

/-- Loading the siblings gets as far as the entry `name`, and the session is `t` then. -/
def Reaches (host : Host) (image : Path) (names : List String) (s : Session) (name : String)
    (t : Session) : Prop :=
  ∃ before after, names = before ++ name :: after ∧
    loadSiblings host image.parent before s = ⟨.ok (), t⟩

/-- A load of the path is asked for while the siblings are loaded. -/
def HandsOver (host : Host) (image : Path) (names : List String) (s : Session) (path : Path) :
    Prop :=
  ∃ name t, Reaches host image names s name t ∧ path = sibling image name ∧
    host.isPresent path = true

theorem Reaches.mem (h : Reaches host image names s name t) : name ∈ names := by
  obtain ⟨before, after, rfl, -⟩ := h
  exact List.mem_append_cons_self

theorem reaches_first : Reaches host image (first :: names) s first s :=
  ⟨[], names, rfl, rfl⟩

theorem Reaches.cons (hfirst : loadSibling host image first s = ⟨.ok (), u⟩)
    (h : Reaches host image names u name t) : Reaches host image (first :: names) s name t := by
  obtain ⟨before, after, rfl, hbefore⟩ := h
  refine ⟨first :: before, after, rfl, ?_⟩
  rw [loadSiblings_eq_forEach] at *
  rwa [forEach_cons_of_eq_ok hfirst]

theorem HandsOver.cons (hfirst : loadSibling host image first s = ⟨.ok (), u⟩)
    (h : HandsOver host image names u path) : HandsOver host image (first :: names) s path := by
  obtain ⟨name, t, hreaches, hpath⟩ := h
  exact ⟨name, t, hreaches.cons hfirst, hpath⟩

/-- An entry without a file ends the loading. -/
theorem loadSiblings_of_reaches (h : Reaches host image names s name t)
    (habsent : host.isPresent (sibling image name) = false) :
    loadSiblings host image.parent names s =
      ⟨.error (.dependencyNotFound (dependencyFileName name) image.parent.text), t⟩ := by
  obtain ⟨before, after, rfl, hbefore⟩ := h
  rw [loadSiblings_eq_forEach] at *
  induction before generalizing s with
  | nil =>
    cases hbefore
    rw [List.nil_append, forEach, loadSibling, if_neg (by simp [habsent])]
    rfl
  | cons first before ih =>
    obtain ⟨u, hfirst, hrest⟩ := forEach_cons_eq_ok_iff.1 hbefore
    rw [List.cons_append, forEach_cons_of_eq_ok hfirst]
    exact ih hrest

/-- A load without dependencies opens its file, or nothing if it is loaded already. -/
theorem opened_load_false (host : Host) (path : Path) (s : Session) :
    ∃ own, (load host false path s).session.opened = s.opened ++ own ∧ ∀ p ∈ own, p = path := by
  rw [load_false]
  rcases loadAlone_cases host path s with ⟨-, h⟩ | ⟨e, notices, h⟩ | ⟨b, notices, rfl, -, -, h⟩
  · exact ⟨[], by rw [h]; simp [Ended.andThen], by simp⟩
  · exact ⟨[path], by rw [h]; rfl, by simp⟩
  · exact ⟨[b.path], by rw [h]; rfl, by simp⟩

/-- Only what is handed over is opened. -/
theorem opened_loadSiblings (host : Host) (image : Path) (names : List String) (s : Session) :
    ∃ paths, (loadSiblings host image.parent names s).session.opened = s.opened ++ paths ∧
      ∀ path ∈ paths, HandsOver host image names s path := by
  rw [loadSiblings_eq_forEach]
  induction names generalizing s with
  | nil => exact ⟨[], by simp [forEach], by simp⟩
  | cons name names ih =>
    by_cases hpresent : host.isPresent (sibling image name) = true
    · have hload : loadSibling host image name s = load host false (sibling image name) s :=
        if_pos hpresent
      obtain ⟨own, hopened, hown⟩ := opened_load_false host (sibling image name) s
      have hfirst : ∀ path ∈ own, HandsOver host image (name :: names) s path := by
        intro path hpath
        exact ⟨name, s, reaches_first, hown path hpath, by rwa [hown path hpath]⟩
      rw [← hload] at hopened
      cases hend : loadSibling host image name s with
      | mk outcome u =>
        rw [hend] at hopened
        cases outcome with
        | error e => exact ⟨own, by rw [forEach, hend]; exact hopened, hfirst⟩
        | ok =>
          obtain ⟨paths, hrest, hpaths⟩ := ih u
          refine ⟨own ++ paths, ?_, List.forall_mem_append.2 ⟨hfirst, fun path hpath =>
            (hpaths path hpath).cons hend⟩⟩
          rw [forEach_cons_of_eq_ok hend, hrest, hopened, List.append_assoc]
    · refine ⟨[], ?_, by simp⟩
      rw [forEach, loadSibling, if_neg hpresent, List.append_nil]
      rfl

/-! ## Next to the image -/

/-- The path is one step down from the image's directory: a file name is joined to it. -/
def Beside (image path : Path) : Prop :=
  ∃ name, IsFileName name ∧ path = image.parent.join name ∧
    path.components = image.parent.components ++ [.name name]

/-- Loading the siblings stays next to the image. -/
structure StaysBeside (host : Host) (image : Path) (names : List String) (s : Session) : Prop where
  handed_over : ∀ path, HandsOver host image names s path → Beside image path
  opened : ∃ paths, (loadSiblings host image.parent names s).session.opened = s.opened ++ paths ∧
    ∀ path ∈ paths, Beside image path
  /-- An entry that gives no file name, or one that no file has, is an error. -/
  not_found : ∀ name t, Reaches host image names s name t →
    ¬(IsFileName (dependencyFileName name) ∧ host.isPresent (sibling image name) = true) →
    loadSiblings host image.parent names s =
      ⟨.error (.dependencyNotFound (dependencyFileName name) image.parent.text), t⟩

theorem beside_sibling_iff :
    Beside image (sibling image name) ↔ dependencyFileName name ∉ ["", ".", ".."] := by
  constructor
  · intro ⟨file, hfile, hjoin, hcomponents⟩ hname
    exact Path.components_join_ne hname image.parent file hcomponents
  · intro hname
    have hfile := (Path.isFileName_iff (separator_notMem_dependencyFileName name)).2 hname
    exact ⟨_, hfile, rfl, Path.components_join_fileName hfile image.parent⟩

/-- **Loading stays next to the image unless it comes to a directory.** That is the case if an entry
gives no name but an empty one, `.` or `..`, and there is something at the path that it leads to.
What is handed over is next to the image, or it is one of the three paths of such an entry. -/
theorem staysBeside_iff (host : Host) (image : Path) (names : List String) (s : Session) :
    (StaysBeside host image names s ↔
      ∀ name t, Reaches host image names s name t → dependencyFileName name ∈ ["", ".", ".."] →
        host.isPresent (sibling image name) = false) ∧
    ∀ path, HandsOver host image names s path → Beside image path ∨
      path ∈ [image.parent.join "", image.parent.join ".", image.parent.join ".."] := by
  refine ⟨⟨fun hstays name t hreaches hname => ?_, fun habsent => ?_⟩, fun path hpath => ?_⟩
  · rw [← Bool.not_eq_true]
    intro hpresent
    exact beside_sibling_iff.1 (hstays.handed_over _ ⟨name, t, hreaches, rfl, hpresent⟩) hname
  · have hbeside : ∀ path, HandsOver host image names s path → Beside image path := by
      intro path ⟨name, t, hreaches, hpath, hpresent⟩
      rw [hpath] at hpresent ⊢
      refine beside_sibling_iff.2 fun hname => ?_
      rw [habsent name t hreaches hname] at hpresent
      cases hpresent
    obtain ⟨paths, hopened, hpaths⟩ := opened_loadSiblings host image names s
    refine ⟨hbeside, ⟨paths, hopened, fun path hpath => hbeside path (hpaths path hpath)⟩,
      fun name t hreaches hnone => loadSiblings_of_reaches hreaches ?_⟩
    rw [← Bool.not_eq_true]
    intro hpresent
    have hname : dependencyFileName name ∉ ["", ".", ".."] := by
      intro hname
      rw [habsent name t hreaches hname] at hpresent
      cases hpresent
    exact hnone ⟨(Path.isFileName_iff (separator_notMem_dependencyFileName name)).2 hname, hpresent⟩
  · obtain ⟨name, t, -, hsibling, -⟩ := hpath
    rw [hsibling]
    by_cases hname : dependencyFileName name ∈ ["", ".", ".."]
    · simp only [List.mem_cons, List.not_mem_nil, or_false] at hname ⊢
      rw [sibling]
      rcases hname with hname | hname | hname <;> simp [hname]
    · exact .inl (beside_sibling_iff.2 hname)

theorem staysBeside_iff_circle :
    StaysBeside circle ⟨"boot/first.oat"⟩ ["/system/first.art", "link.art", "x/gone.art"] {} ∧
    ∃ t, loadSiblings circle ⟨"boot"⟩ ["/system/first.art", "link.art", "x/gone.art"] {} =
        ⟨.error (.dependencyNotFound "gone.oat" "boot"), t⟩ ∧
      t.opened = [⟨"boot/first.oat"⟩, ⟨"boot/link.oat"⟩] := by
  have hnames : ∀ name ∈ ["/system/first.art", "link.art", "x/gone.art"],
      dependencyFileName name ∉ ["", ".", ".."] := by decide
  refine ⟨(staysBeside_iff circle _ _ {}).1.2 fun name t hreaches hname => ?_, _, rfl, rfl⟩
  exact absurd hname (hnames name hreaches.mem)

/-- An image in a directory. -/
def systemTree : FileTree where
  items := [(["system"], .directory), (["system", "boot.oat"], .file #[])]

theorem isPresent_systemTree : systemTree.isPresent ⟨"system/.."⟩ = true := by
  have hwalk : systemTree.walk ⟨"system/.."⟩ = .ok [] := by
    have hparts : FileTree.partsOf ⟨"system/.."⟩ = ["system", ".."] := by decide
    have hstart : FileTree.startOf ⟨"system/.."⟩ [] = [] := by decide
    have hlong : FileTree.isTooLong ⟨"system/.."⟩ = false := by decide
    have hnul : "system/..".toList.contains '\x00' = false := by decide
    have hsize : "system".utf8ByteSize = 6 := by decide
    rw [FileTree.walk, hlong, hnul]
    simp [systemTree, hparts, hstart, FileTree.walkFrom, FileTree.at?, FileTree.maxNameLength,
      hsize]
  rw [FileTree.isPresent, FileTree.find, hwalk]
  rfl

/-- The parent of the image's directory is taken for what the image depends on. -/
theorem not_staysBeside_systemTree :
    ¬StaysBeside (Host.ofTree systemTree (Profile.ofApi 33)) ⟨"system/boot.oat"⟩ [".."] {} := by
  intro h
  have hcomponents : (Path.mk "system/..").components = [.name "system", .parent] := by decide
  have hdirectory : (Path.mk "system/boot.oat").parent.components = [.name "system"] := by decide
  obtain ⟨file, -, -, hbeside⟩ :=
    h.handed_over ⟨"system/.."⟩ ⟨"..", {}, reaches_first, by decide, isPresent_systemTree⟩
  rw [hcomponents, hdirectory] at hbeside
  simp at hbeside

end DalvikLinkage.ClassPath
