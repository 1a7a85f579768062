import DalvikLinkage.ClassPath.Resolution
import DalvikLinkage.Proofs.ClassPath.Failures
import DalvikLinkage.Proofs.Text.Reading

/-!
# Stand-ins for boot class path entries

The classes of a `.jar` on the boot class path may have been moved to an `.odex` file next to it.
Then the `.jar` is there but has no dex entries, and the `.odex` file is loaded in its place.
Whether that is the case shows in the error of the first load alone. An image that depends on a file
without dex entries fails too, but its error is a step of the resolution, and there is no second
load.

A load that fails on a file without dex entries has put nothing on the class path. What it has left
is a longer record, of the files that were opened and of what there was to say about them, and loads
add to the record without looking at it. So the second load does what it would do without the first
one.

Results:
* `load_isNoDexEntries_iff`: a load reports its own file as empty, and no other;
* `loadLocated_startedAfter`: what was opened before does not matter to a load;
* `exists_lastLoad`: loading an entry of the boot class path comes to one load;
* `loadBootEntry_lastLoad`: when it succeeds, what it leaves, and which error it gives.
-/
namespace DalvikLinkage.ClassPath

variable {host : Host} {path : Path} {directories : List Path} {entry standIn : String}
  {dependencies : Bool} {e : Error} {s t : Session}

/-! ## Files without dex entries -/

/-- The container in a file is reported to have no dex entries, when it is opened or when they are
listed. -/
inductive ReportedEmpty (host : Host) (path : Path) : Prop
  | opening {named : Path} (h : (host.openContainer path).outcome = .error (.noDexEntries named))
  | listing {c : Container} (h : (host.openContainer path).outcome = .ok c)
    (hnames : c.entryNames = [])

theorem isNoDexEntries_eq_true_iff :
    e.isNoDexEntries = true ↔ ∃ named, e = .noDexEntries named := by
  cases e <;> simp [Error.isNoDexEntries]

theorem isNoDexEntries_openingError : (openingError path e).isNoDexEntries = e.isNoDexEntries := by
  cases e <;> rfl

theorem Unloadable.isNoDexEntries_iff (h : Unloadable host path e) :
    e.isNoDexEntries = true ↔ ReportedEmpty host path := by
  cases h with
  | @unopened cause hcause =>
    rw [isNoDexEntries_openingError, isNoDexEntries_eq_true_iff]
    constructor
    · rintro ⟨named, rfl⟩
      exact .opening hcause
    · intro hempty
      cases hempty with
      | opening h => exact ⟨_, Except.error.inj (hcause.symm.trans h)⟩
      | listing h => rw [hcause] at h; cases h
  | empty hopened hnames => exact ⟨fun _ => .listing hopened hnames, fun _ => rfl⟩
  | entryMissing hopened hnames =>
    refine ⟨fun h => (by cases h), fun hempty => ?_⟩
    cases hempty with
    | opening h => rw [hopened] at h; cases h
    | listing h hnone =>
      cases hopened.symm.trans h
      simp [hnames] at hnone

/-- An error about dependencies never says that there are no dex entries. -/
theorem load_isNoDexEntries (hempty : e.isNoDexEntries = true) :
    load host dependencies path s = ⟨.error e, t⟩ ↔ load host false path s = ⟨.error e, t⟩ := by
  rcases load_cases host dependencies path s with
    ⟨hloaded, hload⟩ | ⟨e', u, hfalse, hload⟩ | ⟨b, notices, rfl, -, -, hfalse, hload⟩
  · rw [hload, load_eq_of_hasLoaded hloaded]
  · rw [hload, hfalse]
  · rw [hload, hfalse]
    refine ⟨fun h => ?_, fun h => (by cases h)⟩
    split at h
    · obtain ⟨cause, -, rfl⟩ := Ended.mapError_eq_error_iff.1 h
      cases hempty
    · cases h

/-- A load reports that there are no dex entries if and only if its own file is reported empty. -/
theorem load_isNoDexEntries_iff :
    (∃ e, e.isNoDexEntries = true ∧ load host dependencies path s = ⟨.error e, t⟩) ↔
      s.hasLoaded (host.identity path) = false ∧ ReportedEmpty host path ∧
        t = s.afterOpening path (host.openContainer path).notices := by
  constructor
  · intro ⟨e, hempty, h⟩
    rw [load_isNoDexEntries hempty, load_false_eq_error_iff] at h
    obtain ⟨hnew, hfails⟩ := h
    exact ⟨hnew, hfails.reason.isNoDexEntries_iff.1 hempty, hfails.session⟩
  · intro ⟨hnew, hempty, ht⟩
    obtain ⟨e, hreason⟩ : ∃ e, Unloadable host path e := by
      cases hempty with
      | opening h => exact ⟨_, .unopened h⟩
      | listing h hnames => exact ⟨_, .empty h hnames⟩
    have he := hreason.isNoDexEntries_iff.2 hempty
    refine ⟨e, he, (load_isNoDexEntries he).2 ?_⟩
    exact load_false_eq_error_iff.2 ⟨hnew, failsAlone_iff.2 ⟨hreason, ht⟩⟩

/-! ## The record of a session -/

/-- The session as it is if other files had been opened before. -/
def Session.startedAfter (opened : List Path) (notices : List Notice) (s : Session) : Session :=
  { s with opened := opened ++ s.opened, notices := notices ++ s.notices }

def Ended.startedAfter {α : Type} (opened : List Path) (notices : List Notice) (x : Ended α) :
    Ended α :=
  ⟨x.outcome, x.session.startedAfter opened notices⟩

section Record

variable {α β : Type} {opened : List Path} {notices : List Notice}

theorem afterOpening_startedAfter (others : List Notice) :
    (s.startedAfter opened notices).afterOpening path others =
      (s.afterOpening path others).startedAfter opened notices := by
  simp only [Session.startedAfter, Session.afterOpening, List.append_assoc]

theorem andThen_startedAfter {x : Ended α} {next : α → Session → Ended β}
    (h : ∀ a u, next a (u.startedAfter opened notices) =
      (next a u).startedAfter opened notices) :
    (x.startedAfter opened notices).andThen next =
      (x.andThen next).startedAfter opened notices := by
  obtain ⟨outcome, u⟩ := x
  cases outcome with
  | ok a => exact h a u
  | error e => rfl

theorem loadAlone_startedAfter : loadAlone host path (s.startedAfter opened notices) =
    (loadAlone host path s).startedAfter opened notices := by
  have hloaded : (s.startedAfter opened notices).hasLoaded (host.identity path) =
      s.hasLoaded (host.identity path) := rfl
  rw [loadAlone, loadAlone, hloaded]
  cases s.hasLoaded (host.identity path) with
  | true => rfl
  | false =>
    simp only [openAt, afterOpening_startedAfter, Bool.false_eq_true, if_false]
    cases (host.openContainer path).outcome with
    | error e => rfl
    | ok c =>
      dsimp only
      cases entriesOf path c <;> rfl

theorem loadSiblings_startedAfter (directory : Path) (names : List String) :
    loadSiblings host directory names (s.startedAfter opened notices) =
      (loadSiblings host directory names s).startedAfter opened notices := by
  induction names generalizing s with
  | nil => rfl
  | cons name rest ih =>
    simp only [loadSiblings, loadAlone_startedAfter]
    split
    · exact andThen_startedAfter fun _ _ => ih
    · rfl

/-- A load adds to the record and does not look at it. -/
theorem load_startedAfter : load host dependencies path (s.startedAfter opened notices) =
    (load host dependencies path s).startedAfter opened notices := by
  simp only [load, loadAlone_startedAfter]
  refine andThen_startedAfter fun c u => ?_
  cases c with
  | none => rfl
  | some c =>
    simp only [loadSiblings_startedAfter]
    split <;> rfl

theorem loadLocated_startedAfter :
    loadLocated host directories entry (s.startedAfter opened notices) =
      (loadLocated host directories entry s).startedAfter opened notices := by
  unfold loadLocated
  cases locate? host directories entry with
  | none => rfl
  | some file => exact load_startedAfter

end Record

/-- The two end with the same outcome and the same class path. What was recorded on the way may not
be the same. -/
structure SameResult (x y : Ended Unit) : Prop where
  outcome : x.outcome = y.outcome
  loaded : x.session.loaded = y.session.loaded
  providers : x.session.providers = y.session.providers

theorem SameResult.refl (x : Ended Unit) : SameResult x x := ⟨rfl, rfl, rfl⟩

theorem SameResult.mapError {x y : Ended Unit} (h : SameResult x y) (f : Error → Error) :
    SameResult (x.mapError f) (y.mapError f) :=
  ⟨congrArg (·.mapError f) h.outcome, h.loaded, h.providers⟩

/-- A file that was opened in vain makes no difference to a load. -/
theorem loadLocated_afterOpening (notices : List Notice) :
    SameResult (loadLocated host directories entry (s.afterOpening path notices))
      (loadLocated host directories entry s) := by
  let fresh : Session := { loaded := s.loaded, providers := s.providers }
  have hs : s = fresh.startedAfter s.opened s.notices := by simp [fresh, Session.startedAfter]
  have ht : s.afterOpening path notices =
      fresh.startedAfter (s.opened ++ [path]) (s.notices ++ notices) := by
    simp [fresh, Session.startedAfter, Session.afterOpening]
  rw [ht, loadLocated_startedAfter]
  rw [hs, loadLocated_startedAfter]
  exact ⟨rfl, rfl, rfl⟩

/-! ## Entries without dex entries -/

/-- The container that is found for an entry is not loaded yet, and it is reported to have no dex
entries. -/
def FoundEmpty (host : Host) (directories : List Path) (entry : String) (s : Session) : Prop :=
  ∃ file, locate? host directories entry = some file ∧
    s.hasLoaded (host.identity file) = false ∧ ReportedEmpty host file

theorem loadLocated_isNoDexEntries (hempty : e.isNoDexEntries = true)
    (h : loadLocated host directories entry s = ⟨.error e, t⟩) :
    FoundEmpty host directories entry s ∧ ∃ file notices, t = s.afterOpening file notices := by
  unfold loadLocated at h
  cases hfile : locate? host directories entry with
  | none =>
    rw [hfile] at h
    cases h
    cases hempty
  | some file =>
    rw [hfile] at h
    obtain ⟨hnew, hreported, ht⟩ := load_isNoDexEntries_iff.1 ⟨e, hempty, h⟩
    exact ⟨⟨file, hfile, hnew, hreported⟩, file, _, ht⟩

theorem FoundEmpty.exists_error (h : FoundEmpty host directories entry s) :
    ∃ e t, e.isNoDexEntries = true ∧ loadLocated host directories entry s = ⟨.error e, t⟩ := by
  obtain ⟨file, hfile, hnew, hreported⟩ := h
  have hload : ∃ e, e.isNoDexEntries = true ∧ load host true file s =
      ⟨.error e, s.afterOpening file (host.openContainer file).notices⟩ :=
    load_isNoDexEntries_iff.2 ⟨hnew, hreported, rfl⟩
  obtain ⟨e, hempty, hload⟩ := hload
  exact ⟨e, _, hempty, by rw [loadLocated, hfile]; exact hload⟩

/-- The load of an entry says that there are no dex entries if and only if that is reported of the
container found for the entry itself. -/
theorem foundEmpty_iff : FoundEmpty host directories entry s ↔
    ∃ cause, (loadLocated host directories entry s).outcome = .error cause ∧
      cause.isNoDexEntries = true := by
  constructor
  · intro h
    obtain ⟨cause, t, hempty, hload⟩ := h.exists_error
    exact ⟨cause, by rw [hload], hempty⟩
  · intro ⟨cause, hcause, hempty⟩
    have hload : loadLocated host directories entry s =
        ⟨.error cause, (loadLocated host directories entry s).session⟩ := by rw [← hcause]
    exact (loadLocated_isNoDexEntries hempty hload).1

/-! ## Entries of the boot class path -/

theorem standIn?_eq_some_iff : standIn? entry = some standIn ↔
    ∃ stem, entry = stem ++ ".jar" ∧ standIn = stem ++ ".odex" := by
  unfold standIn?
  rw [Option.map_eq_some_iff]
  constructor
  · rintro ⟨stem, hstem, rfl⟩
    refine ⟨String.ofList stem, Text.withoutEnd?_toList_eq_some_iff.1 hstem, ?_⟩
    simp [String.ofList_append]
  · rintro ⟨stem, rfl, rfl⟩
    refine ⟨stem.toList, Text.withoutEnd?_toList_eq_some_iff.2 (by rw [String.ofList_toList]), ?_⟩
    simp [String.ofList_append]

/-- The entry whose load is the last one: what stands in for a `.jar` without dex entries, and
otherwise the entry itself. -/
inductive LastLoad (host : Host) (directories : List Path) (entry : String) (s : Session) :
    String → Prop
  | itself (h : ∀ stem, entry = stem ++ ".jar" → ¬ FoundEmpty host directories entry s) :
    LastLoad host directories entry s entry
  | standIn {stem : String} (h : entry = stem ++ ".jar")
    (hempty : FoundEmpty host directories entry s) :
    LastLoad host directories entry s (stem ++ ".odex")

/-- The step that an error of the last load is about: that load alone, or both of them if neither
file has dex entries. -/
def lastStep (entry last : String) (cause : Error) : Step :=
  if last ≠ entry ∧ cause.isNoDexEntries = true then .neitherBootEntry entry last
  else .bootEntry last

/-- The error of the last load as that of the entry. -/
def lastError (entry last : String) (cause : Error) : Error :=
  .during (lastStep entry last cause) cause

theorem lastError_self (entry : String) (cause : Error) :
    lastError entry entry cause = .during (.bootEntry entry) cause := by
  simp [lastError, lastStep]

theorem lastError_standIn (stem : String) (cause : Error) :
    lastError (stem ++ ".jar") (stem ++ ".odex") cause =
      standInError (stem ++ ".jar") (stem ++ ".odex") cause := by
  have hne : stem ++ ".odex" ≠ stem ++ ".jar" := by
    rw [Ne, ← String.toList_inj]
    simp
  simp [lastError, lastStep, standInError, hne]

/-- The stand-in of an entry without dex entries is loaded as if the entry had not been tried. -/
theorem loadBootEntry_of_foundEmpty {stem : String}
    (h : FoundEmpty host directories (stem ++ ".jar") s) :
    SameResult (loadBootEntry host directories (stem ++ ".jar") s)
      ((loadLocated host directories (stem ++ ".odex") s).mapError
        (lastError (stem ++ ".jar") (stem ++ ".odex"))) := by
  obtain ⟨e, t, hempty, hload⟩ := h.exists_error
  obtain ⟨-, file, notices, rfl⟩ := loadLocated_isNoDexEntries hempty hload
  have hstandIn : standIn? (stem ++ ".jar") = some (stem ++ ".odex") :=
    standIn?_eq_some_iff.2 ⟨stem, rfl, rfl⟩
  rw [funext (lastError_standIn stem), loadBootEntry, hload]
  simp only [hempty, if_true, hstandIn]
  exact (loadLocated_afterOpening notices).mapError _

/-- Any other entry is loaded once. -/
theorem loadBootEntry_of_not_foundEmpty
    (h : ∀ stem, entry = stem ++ ".jar" → ¬ FoundEmpty host directories entry s) :
    loadBootEntry host directories entry s =
      (loadLocated host directories entry s).mapError (lastError entry entry) := by
  rw [funext (lastError_self entry), loadBootEntry]
  cases hload : loadLocated host directories entry s with
  | mk outcome t =>
    cases outcome with
    | ok _ => rfl
    | error e =>
      have hnone : (if e.isNoDexEntries then standIn? entry else none) = none := by
        rw [ite_eq_right_iff]
        intro hempty
        refine Option.eq_none_iff_forall_ne_some.2 fun standIn hstandIn => ?_
        obtain ⟨stem, hstem, -⟩ := standIn?_eq_some_iff.1 hstandIn
        exact h stem hstem (loadLocated_isNoDexEntries hempty hload).1
      simp only [hnone]
      rfl

/-- Loading an entry comes to what its last load comes to, as if that had been the only one. -/
theorem exists_lastLoad (host : Host) (directories : List Path) (entry : String) (s : Session) :
    ∃ last, LastLoad host directories entry s last ∧
      SameResult (loadBootEntry host directories entry s)
        ((loadLocated host directories last s).mapError (lastError entry last)) := by
  by_cases h : ∃ stem, entry = stem ++ ".jar" ∧ FoundEmpty host directories entry s
  · obtain ⟨stem, rfl, hempty⟩ := h
    exact ⟨_, .standIn rfl hempty, loadBootEntry_of_foundEmpty hempty⟩
  · have hnot : ∀ stem, entry = stem ++ ".jar" → ¬ FoundEmpty host directories entry s :=
      fun stem hstem hempty => h ⟨stem, hstem, hempty⟩
    refine ⟨entry, .itself hnot, ?_⟩
    rw [loadBootEntry_of_not_foundEmpty hnot]
    exact .refl _

/-- An entry that can be loaded itself is loaded, and nothing stands in for it. -/
theorem loadBootEntry_of_ok (h : (loadLocated host directories entry s).outcome = .ok ()) :
    loadBootEntry host directories entry s = loadLocated host directories entry s := by
  rw [loadBootEntry, Ended.eq_of_outcome h]

theorem not_foundEmpty_of_ok (h : (loadLocated host directories entry s).outcome = .ok ()) :
    ¬ FoundEmpty host directories entry s := by
  rw [foundEmpty_iff, h]
  simp

/-- **A stand-in is loaded for a file without dex entries, and for nothing else.** An entry of the
boot class path can be loaded if and only if its own load succeeds, or it is a `.jar`, the container
found for it has no dex entries, and its `.odex` can be loaded. The class path is then the one that
the load that succeeded leads to by itself; a first load that failed shows only in the record of
what was opened. Every error is a failed step because of the error of the last load, and has its
root cause. -/
theorem loadBootEntry_lastLoad (host : Host) (directories : List Path) (entry : String)
    (s : Session) :
    let ended := loadBootEntry host directories entry s
    let alone := fun name => loadLocated host directories name s
    (FoundEmpty host directories entry s ↔
      ∃ cause, (alone entry).outcome = .error cause ∧ cause.isNoDexEntries = true) ∧
    (ended.outcome = .ok () ↔ (alone entry).outcome = .ok () ∨
      ∃ stem, entry = stem ++ ".jar" ∧ FoundEmpty host directories entry s ∧
        (alone (stem ++ ".odex")).outcome = .ok ()) ∧
    ((alone entry).outcome = .ok () → ended = alone entry) ∧
    (∀ stem, entry = stem ++ ".jar" → FoundEmpty host directories entry s →
      ended.session.loaded = (alone (stem ++ ".odex")).session.loaded ∧
      ended.session.providers = (alone (stem ++ ".odex")).session.providers) ∧
    ∀ e, ended.outcome = .error e → ∃ last cause, LastLoad host directories entry s last ∧
      (alone last).outcome = .error cause ∧ e = .during (lastStep entry last cause) cause ∧
      e.rootCause = cause.rootCause := by
  intro ended alone
  obtain ⟨last, hlast, hsame⟩ := exists_lastLoad host directories entry s
  refine ⟨foundEmpty_iff, ?_, loadBootEntry_of_ok, ?_, ?_⟩
  · have hok : ended.outcome = .ok () ↔ (alone last).outcome = .ok () := by
      rw [hsame.outcome]
      exact except_mapError_eq_ok_iff
    rw [hok]
    cases hlast with
    | itself hnot =>
      refine ⟨.inl, fun h => h.elim id fun hstandIn => ?_⟩
      obtain ⟨stem, hstem, hempty, -⟩ := hstandIn
      exact absurd hempty (hnot stem hstem)
    | @standIn stem hstem hempty =>
      constructor
      · intro h
        exact .inr ⟨stem, hstem, hempty, h⟩
      · rintro (h | ⟨stem', hstem', -, h⟩)
        · exact absurd hempty (not_foundEmpty_of_ok h)
        · obtain rfl := (String.append_left_inj ".jar").1 (hstem.symm.trans hstem')
          exact h
  · intro stem hstem hempty
    subst hstem
    have hstandIn := loadBootEntry_of_foundEmpty hempty
    exact ⟨hstandIn.loaded, hstandIn.providers⟩
  · intro e he
    rw [hsame.outcome] at he
    obtain ⟨cause, hcause, rfl⟩ := except_mapError_eq_error_iff.1 he
    exact ⟨last, cause, hlast, hcause, rfl, rfl⟩

/-- A `.jar` without dex entries, next to the `.odex` that has them. -/
def movedOut : Host where
  identity p := p
  isFile _ := true
  isDirectory _ := false
  isPresent _ := true
  openContainer p :=
    if p.text = "core.odex" then Logged.value (imageOf "core.dex" [])
    else Logged.value (Container.ofOption none)

example : (loadBootEntry movedOut [] "core.jar" {}).session.opened =
      [⟨"core.jar"⟩, ⟨"core.odex"⟩] ∧
    (loadBootEntry movedOut [] "core.jar" {}).session.loaded = [⟨"core.odex"⟩] := by decide

end DalvikLinkage.ClassPath
