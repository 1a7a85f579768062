import DalvikLinkage.ClassPath.Resolution
import DalvikLinkage.Proofs.Text.Reading
import Mathlib.Data.Prod.Lex
import Mathlib.Order.Bounds.Basic

/-!
# The search for device paths

An entry of the boot class path is mostly the path of a file on a device, and the file itself is
somewhere below one of the given directories, under the last few names of that path. The search goes
through the directories in their order, and in each of them from all names down to the last one. A
place of the search is thus a pair of numbers, which directory and from which name on, and the
search visits the places in the lexicographic order of these pairs.

Results:
* `candidatesIn_eq_map`: the places in one directory;
* `firstIn?_eq_some_iff`, `firstIn?_eq_none_iff`: the file that is found in one directory;
* `find?_candidates_eq_some`, `find?_candidates_eq_none`: the file that is found at all;
* `loadLocated_search`: what an entry of the boot class path loads.
-/
namespace DalvikLinkage.ClassPath

variable {host : Host} {directory file : Path} {directories : List Path} {names : List String}
  {i j : Nat}

/-! ## Names -/

theorem deviceNames_eq (entry : String) :
    (deviceNames entry).map String.toList =
      (entry.toList.splitOnP fun c => c == '/' || c == '\\').filter (· ≠ []) := by
  simp [deviceNames, Text.pieces_eq_splitOnP, List.map_map, Function.comp_def]

/-! ## One directory -/

/-- The path of the names from the `j`-th one on, under a directory. -/
def suffixPath (directory : Path) (names : List String) (j : Nat) : Path :=
  (names.drop j).foldl Path.join directory

theorem candidatesIn_eq_map (directory : Path) (names : List String) :
    candidatesIn directory names = (List.range names.length).map (suffixPath directory names) := by
  induction names with
  | nil => rfl
  | cons name rest ih =>
    rw [List.length_cons, List.range_succ_eq_map, List.map_cons, List.map_map, candidatesIn, ih]
    rfl

/-- The first file that is found under a directory, none if it is no directory. -/
def firstIn? (host : Host) (names : List String) (directory : Path) : Option Path :=
  if host.isDirectory directory then (candidatesIn directory names).find? host.isFile else none

theorem firstIn?_eq_some_iff : firstIn? host names directory = some file ↔
    host.isDirectory directory = true ∧ ∃ j < names.length, file = suffixPath directory names j ∧
      host.isFile file = true ∧ ∀ k < j, host.isFile (suffixPath directory names k) = false := by
  unfold firstIn?
  split
  · next hdirectory =>
    rw [candidatesIn_eq_map, List.find?_map, Option.map_eq_some_iff]
    simp only [List.find?_range_eq_some, List.mem_range, Function.comp_apply, Bool.not_eq_true']
    constructor
    · intro ⟨j, ⟨hfile, hj, hbefore⟩, he⟩
      subst he
      exact ⟨hdirectory, j, hj, rfl, hfile, hbefore⟩
    · intro ⟨_, j, hj, he, hfile, hbefore⟩
      subst he
      exact ⟨j, ⟨hfile, hj, hbefore⟩, rfl⟩
  · next hdirectory => simp [hdirectory]

theorem firstIn?_eq_none_iff : firstIn? host names directory = none ↔
    (host.isDirectory directory = true →
      ∀ j < names.length, host.isFile (suffixPath directory names j) = false) := by
  unfold firstIn?
  rw [candidatesIn_eq_map, List.find?_map, ite_eq_right_iff]
  simp

/-! ## All directories -/

/-- There is a file at a place of the search. -/
structure FoundAt (host : Host) (directories : List Path) (names : List String) (i j : Nat)
    (file : Path) : Prop where
  directory : ∃ d, directories[i]? = some d ∧ host.isDirectory d = true ∧
    file = suffixPath d names j
  suffix : j < names.length
  isFile : host.isFile file = true

/-- The places of the search with a file, in the order in which they are visited. -/
def placesFound (host : Host) (directories : List Path) (names : List String) : Set (ℕ ×ₗ ℕ) :=
  {place | ∃ file, FoundAt host directories names (ofLex place).1 (ofLex place).2 file}

theorem find?_candidates (host : Host) (directories : List Path) (entry : String) :
    (candidates host directories entry).find? host.isFile =
      directories.findSome? (firstIn? host (deviceNames entry)) := by
  unfold candidates
  induction directories with
  | nil => rfl
  | cons d directories ih =>
    rw [List.findSome?_cons, firstIn?]
    cases hd : host.isDirectory d with
    | false => simpa [hd] using ih
    | true =>
      simp only [List.filter_cons, hd, if_true, List.flatMap_cons, List.find?_append, ih]
      cases (candidatesIn d (deviceNames entry)).find? host.isFile <;> rfl

/-- The directory of a place with a file is not gone through in vain. -/
theorem FoundAt.firstIn?_ne_none (h : FoundAt host directories names i j file)
    (hd : directories[i]? = some directory) : firstIn? host names directory ≠ none := by
  obtain ⟨⟨d, hd', hdirectory, he⟩, hj, hfile⟩ := h
  obtain rfl : d = directory := Option.some.inj (hd'.symm.trans hd)
  intro hnone
  have habsent := firstIn?_eq_none_iff.1 hnone hdirectory j hj
  rw [← he, hfile] at habsent
  cases habsent

theorem find?_candidates_eq_none {entry : String}
    (h : (candidates host directories entry).find? host.isFile = none) :
    ¬ FoundAt host directories (deviceNames entry) i j file := by
  rw [find?_candidates, List.findSome?_eq_none_iff] at h
  intro hfound
  obtain ⟨d, hd, -⟩ := hfound.directory
  exact hfound.firstIn?_ne_none hd (h d (List.mem_of_getElem? hd))

/-- The search finds the file at the first place that has one. -/
theorem find?_candidates_eq_some {entry : String}
    (h : (candidates host directories entry).find? host.isFile = some file) :
    ∃ i j, FoundAt host directories (deviceNames entry) i j file ∧
      IsLeast (placesFound host directories (deviceNames entry)) (toLex (i, j)) := by
  rw [find?_candidates, List.findSome?_eq_some_iff] at h
  obtain ⟨before, d, after, hsplit, hd, hbefore⟩ := h
  obtain ⟨hdirectory, j, hj, he, hfile, hlonger⟩ := firstIn?_eq_some_iff.1 hd
  have hget : directories[before.length]? = some d := by simp [hsplit]
  have hhere : FoundAt host directories (deviceNames entry) before.length j file :=
    ⟨⟨d, hget, hdirectory, he⟩, hj, hfile⟩
  refine ⟨before.length, j, hhere, ⟨file, hhere⟩, fun place hplace => ?_⟩
  obtain ⟨other, hother⟩ := hplace
  obtain ⟨d', hget', -, he'⟩ := hother.directory
  refine Prod.Lex.toLex_le_toLex.2 ?_
  rcases Nat.lt_trichotomy before.length (ofLex place).1 with hlt | heq | hgt
  · exact .inl hlt
  · refine .inr ⟨heq, Nat.le_of_not_lt fun hlt => ?_⟩
    rw [← heq, hget] at hget'
    cases hget'
    have habsent : host.isFile other = false := by
      rw [he']
      exact hlonger _ hlt
    rw [hother.isFile] at habsent
    cases habsent
  · -- Nothing was found in the directories before.
    refine absurd (hbefore d' ?_) (hother.firstIn?_ne_none hget')
    rw [hsplit, List.getElem?_append_left hgt] at hget'
    exact List.mem_of_getElem? hget'

/-! ## Loads -/

theorem locate?_eq (host : Host) (directories : List Path) (entry : String) :
    locate? host directories entry =
      if host.isFile ⟨entry⟩ then some ⟨entry⟩
      else (candidates host directories entry).find? host.isFile := by
  rw [locate?, List.find?_cons]
  cases host.isFile ⟨entry⟩ <;> rfl

/-- **Where an entry of the boot class path is loaded from.** The names of a device path are what is
between its separators, without empty pieces. An entry that is a file itself is loaded as it is.
Otherwise the search visits the names from some place on under each directory, and what is loaded is
the file at the least place that has one; whether that load succeeds is not asked. If no place has
one, the session stays as it is, and the error has the entry and all directories. -/
theorem loadLocated_search (host : Host) (directories : List Path) (entry : String) :
    (deviceNames entry).map String.toList =
      (entry.toList.splitOnP fun c => c == '/' || c == '\\').filter (· ≠ []) ∧
    (host.isFile ⟨entry⟩ = true ∧
      (∀ s, loadLocated host directories entry s = load host true ⟨entry⟩ s) ∨
    host.isFile ⟨entry⟩ = false ∧
      (∃ i j file, FoundAt host directories (deviceNames entry) i j file ∧
        IsLeast (placesFound host directories (deviceNames entry)) (toLex (i, j)) ∧
        ∀ s, loadLocated host directories entry s = load host true file s) ∨
    host.isFile ⟨entry⟩ = false ∧
      (∀ i j file, ¬ FoundAt host directories (deviceNames entry) i j file) ∧
      ∀ s, loadLocated host directories entry s =
        ⟨.error (.dependencyNotFound entry (":".intercalate (directories.map Path.text))), s⟩) := by
  refine ⟨deviceNames_eq entry, ?_⟩
  have hlocate := locate?_eq host directories entry
  unfold loadLocated
  cases hlocal : host.isFile ⟨entry⟩ with
  | true =>
    rw [hlocate, hlocal, if_pos rfl]
    exact .inl ⟨rfl, fun s => rfl⟩
  | false =>
    rw [hlocate, hlocal, if_neg Bool.false_ne_true]
    cases hfind : (candidates host directories entry).find? host.isFile with
    | some file =>
      obtain ⟨i, j, hfound, hleast⟩ := find?_candidates_eq_some hfind
      exact .inr (.inl ⟨rfl, i, j, file, hfound, hleast, fun s => rfl⟩)
    | none =>
      refine .inr (.inr ⟨rfl, fun _ _ _ => find?_candidates_eq_none hfind, fun s => ?_⟩)
      rw [Text.join_eq_intercalate]

/-- All names under the first directory, the last one under it, and only then the second directory.
-/
example (h : ∀ d, host.isDirectory d = true) :
    candidates host [⟨"a"⟩, ⟨"b/"⟩] "/system//core.jar" =
      [⟨"a/system/core.jar"⟩, ⟨"a/core.jar"⟩, ⟨"b/system/core.jar"⟩, ⟨"b/core.jar"⟩] := by
  simp only [candidates, List.filter_cons, h, if_true, List.filter_nil]
  decide

end DalvikLinkage.ClassPath
