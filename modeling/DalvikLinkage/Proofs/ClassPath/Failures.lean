import DalvikLinkage.Proofs.ClassPath.Dependencies
import DalvikLinkage.Proofs.Outcome

/-!
# Loads that fail

A load can fail on the file itself. Then nothing was registered yet, and the class path is what it
was. A load of an image with its dependencies can also fail later, at the first dependency that is
missing or that cannot be loaded. Then the image and the dependencies before that one are on the
class path, as if they had been loaded one by one, and they stay there. The one that failed has left
nothing, since a load without dependencies fails only on the file itself.

Results:
* `load_false_eq_error_iff`: why a file by itself cannot be loaded;
* `forEach_eq_error_iff`: work on a list fails at one entry, and stops there;
* `load_eq_error_iff`: how a load fails, with which error, and what it leaves.
-/
namespace DalvikLinkage.ClassPath

variable {host : Host} {path image : Path} {dependencies : Bool} {c : Container} {e : Error}
  {name : String} {s t : Session}

/-! ## Files that cannot be loaded -/

/-- Why a file cannot be loaded, whatever it depends on: it cannot be opened, or its container lists
no entries, or it lists one that it does not hand out. -/
inductive Unloadable (host : Host) (path : Path) : Error → Prop
  | unopened {e : Error} (h : (host.openContainer path).outcome = .error e) :
    Unloadable host path (openingError path e)
  | empty {c : Container} (h : (host.openContainer path).outcome = .ok c)
    (hnames : c.entryNames = []) : Unloadable host path (.noDexEntries path)
  | entryMissing {c : Container} {before after : List String} {name : String}
    (h : (host.openContainer path).outcome = .ok c)
    (hnames : c.entryNames = before ++ name :: after)
    (hbefore : ∀ other ∈ before, (c.entry? other).isSome = true) (hname : c.entry? name = none) :
    Unloadable host path (.malformed path { cause := .entryMissing name })

theorem entries_eq_error_iff : c.entries = .error name ↔ ∃ before after,
    c.entryNames = before ++ name :: after ∧
      (∀ other ∈ before, (c.entry? other).isSome = true) ∧ c.entry? name = none := by
  rw [Container.entries, mapM_eq_error_iff]
  constructor
  · intro ⟨before, other, after, hnames, hbefore, hother⟩
    split at hother
    · cases hother
    · next hnone =>
      cases hother
      refine ⟨before, after, hnames, fun n hn => ?_, hnone⟩
      obtain ⟨entry, hentry⟩ := hbefore n hn
      cases hn : c.entry? n with
      | none => rw [hn] at hentry; cases hentry
      | some _ => rfl
  · intro ⟨before, after, hnames, hbefore, hnone⟩
    refine ⟨before, name, after, hnames, fun n hn => ?_, by rw [hnone]⟩
    obtain ⟨entry, hentry⟩ := Option.isSome_iff_exists.1 (hbefore n hn)
    exact ⟨entry, by rw [hentry]⟩

theorem unloadable_iff : Unloadable host path e ↔
    (∃ cause, (host.openContainer path).outcome = .error cause ∧ openingError path cause = e) ∨
      ∃ c, (host.openContainer path).outcome = .ok c ∧ entriesOf path c = .error e := by
  constructor
  · intro h
    cases h with
    | unopened h => exact .inl ⟨_, h, rfl⟩
    | empty h hnames => exact .inr ⟨_, h, by rw [entriesOf, hnames]; rfl⟩
    | @entryMissing c before after name h hnames hbefore hname =>
      have hentries := entries_eq_error_iff.2 ⟨before, after, hnames, hbefore, hname⟩
      refine .inr ⟨c, h, ?_⟩
      rw [entriesOf, if_neg (by simp [hnames]), hentries]
      rfl
  · rintro (⟨cause, h, rfl⟩ | ⟨c, h, hentries⟩)
    · exact .unopened h
    · rw [entriesOf] at hentries
      split at hentries
      · next hempty =>
        cases hentries
        exact .empty h (List.isEmpty_iff.1 hempty)
      · cases he : c.entries with
        | ok entries => rw [he] at hentries; cases hentries
        | error name =>
          rw [he] at hentries
          cases hentries
          obtain ⟨before, after, hnames, hbefore, hname⟩ := entries_eq_error_iff.1 he
          exact .entryMissing h hnames hbefore hname

/-- A load fails on the file itself. All that it leaves is that the file was opened; the class path
is what it was. -/
structure FailsAlone (host : Host) (path : Path) (s : Session) (e : Error) (t : Session) :
    Prop where
  reason : Unloadable host path e
  session : t = s.afterOpening path (host.openContainer path).notices
  loaded : t.loaded = s.loaded
  providers : t.providers = s.providers

theorem failsAlone_iff : FailsAlone host path s e t ↔
    Unloadable host path e ∧ t = s.afterOpening path (host.openContainer path).notices := by
  constructor
  · intro h
    exact ⟨h.reason, h.session⟩
  · intro ⟨hreason, hsession⟩
    subst hsession
    exact ⟨hreason, rfl, rfl, rfl⟩

theorem loadAlone_eq_error_iff : loadAlone host path s = ⟨.error e, t⟩ ↔
    s.hasLoaded (host.identity path) = false ∧ FailsAlone host path s e t := by
  rw [loadAlone, failsAlone_iff, unloadable_iff]
  cases s.hasLoaded (host.identity path) with
  | true => simp
  | false =>
    simp only [openAt, Bool.false_eq_true, if_false, true_and]
    cases (host.openContainer path).outcome with
    | error cause => simp [eq_comm]
    | ok c =>
      cases he : entriesOf path c with
      | error cause => simp [he, eq_comm]
      | ok entries => simp [he]

/-- A load without dependencies fails on a file that was not loaded, and fails alone. -/
theorem load_false_eq_error_iff : load host false path s = ⟨.error e, t⟩ ↔
    s.hasLoaded (host.identity path) = false ∧ FailsAlone host path s e t := by
  rw [load_false, Ended.andThen_eq_error_iff, ← loadAlone_eq_error_iff]
  simp

/-! ## Work that stops -/

/-- Work that fails on a list has succeeded on the entries before one entry, fails at that one and
stops there. -/
theorem forEach_eq_error_iff {α : Type} {work : α → Session → Ended Unit} {l : List α} :
    forEach work l s = ⟨.error e, t⟩ ↔ ∃ before a after u, l = before ++ a :: after ∧
      forEach work before s = ⟨.ok (), u⟩ ∧ work a u = ⟨.error e, t⟩ := by
  induction l generalizing s with
  | nil => simp [forEach]
  | cons a l ih =>
    rw [forEach, Ended.andThen_eq_error_iff]
    constructor
    · intro h
      rcases h with ha | ⟨_, v, ha, hl⟩
      · exact ⟨[], a, l, s, rfl, rfl, ha⟩
      · obtain ⟨before, c, after, u, rfl, hbefore, hc⟩ := ih.1 hl
        exact ⟨a :: before, c, after, u, rfl, forEach_cons_eq_ok_iff.2 ⟨v, ha, hbefore⟩, hc⟩
    · intro h
      obtain ⟨before, c, after, u, hsplit, hbefore, hc⟩ := h
      cases before with
      | nil =>
        cases hsplit
        cases hbefore
        exact .inl hc
      | cons _ before =>
        cases hsplit
        obtain ⟨v, ha, hbefore⟩ := forEach_cons_eq_ok_iff.1 hbefore
        exact .inr ⟨(), v, ha, ih.2 ⟨before, c, after, u, rfl, hbefore, hc⟩⟩

/-! ## Dependencies that cannot be loaded -/

/-- A file that an image depends on is not there, or a load of it fails. -/
inductive SiblingFails (host : Host) (image : Path) (name : String) (s : Session) :
    Error → Session → Prop
  | missing (h : host.isPresent (sibling image name) = false) :
    SiblingFails host image name s
      (.dependencyNotFound (dependencyFileName name) image.parent.text) s
  | unloadable {cause : Error} {t : Session} (hpresent : host.isPresent (sibling image name) = true)
    (h : load host false (sibling image name) s = ⟨.error cause, t⟩) :
    SiblingFails host image name s cause t

theorem loadSibling_eq_error_iff :
    loadSibling host image name s = ⟨.error e, t⟩ ↔ SiblingFails host image name s e t := by
  unfold loadSibling
  constructor
  · intro h
    split at h
    · rename_i hpresent
      exact .unloadable hpresent h
    · rename_i habsent
      cases h
      exact .missing (Bool.eq_false_iff.2 habsent)
  · intro h
    cases h with
    | missing habsent => simp [habsent]
    | unloadable hpresent h => rw [if_pos hpresent, h]

/-- A dependency that fails has put nothing on the class path. -/
theorem SiblingFails.classPath_eq (h : SiblingFails host image name s e t) :
    t.loaded = s.loaded ∧ t.providers = s.providers := by
  cases h with
  | missing => exact ⟨rfl, rfl⟩
  | unloadable _ h =>
    obtain ⟨-, halone⟩ := load_false_eq_error_iff.1 h
    exact ⟨halone.loaded, halone.providers⟩

/-! ## How a load fails -/

/-- A load of an image fails at a file it depends on, behind others that it could load. It leaves
the class path that loading the image and those others one by one, without what they depend on,
leads to. -/
structure FailsAt (host : Host) (path : Path) (s : Session) (before : List String) (name : String)
    (cause : Error) (t : Session) : Prop where
  others_present : ∀ other ∈ before, host.isPresent (sibling path other) = true
  reached : ∃ u, forEach (load host false) (path :: before.map (sibling path)) s = ⟨.ok (), u⟩ ∧
    SiblingFails host path name u cause t ∧ t.loaded = u.loaded ∧ t.providers = u.providers

/-- Dependencies are looked for only behind an image that was loaded itself. -/
theorem FailsAt.image_loads {before : List String} {cause : Error}
    (h : FailsAt host path s before name cause t) :
    ∃ u, load host false path s = ⟨.ok (), u⟩ := by
  obtain ⟨_, hlist, -⟩ := h.reached
  obtain ⟨u, himage, -⟩ := forEach_cons_eq_ok_iff.1 hlist
  exact ⟨u, himage⟩

/-- The dependencies of an image that could be loaded itself fail at one of them. -/
theorem forEach_loadSibling_eq_error_iff {names : List String} {registered : Session}
    (h : load host false path s = ⟨.ok (), registered⟩) :
    forEach (loadSibling host path) names registered = ⟨.error e, t⟩ ↔
      ∃ before name after, names = before ++ name :: after ∧
        FailsAt host path s before name e t := by
  rw [forEach_eq_error_iff]
  constructor
  · intro ⟨before, name, after, u, hsplit, hbefore, hname⟩
    obtain ⟨hpresent, hlist⟩ := forEach_loadSibling_eq_ok_iff.1 hbefore
    have hfails := loadSibling_eq_error_iff.1 hname
    refine ⟨before, name, after, hsplit, hpresent, u, ?_, hfails, hfails.classPath_eq⟩
    rwa [forEach_cons_of_eq_ok h]
  · intro ⟨before, name, after, hsplit, hpresent, u, hlist, hfails, _, _⟩
    rw [forEach_cons_of_eq_ok h] at hlist
    exact ⟨before, name, after, u, hsplit, forEach_loadSibling_eq_ok_iff.2 ⟨hpresent, hlist⟩,
      loadSibling_eq_error_iff.2 hfails⟩

/-- **How a load fails, and what it leaves.** A load fails if and only if its file was not loaded
before, and the file itself cannot be loaded or, where dependencies are asked for and the file is an
image, one of them is missing or cannot be loaded. In the first case the class path stays as it was.
In the second case the error is the one of the first dependency that fails, in the step of loading
the image, and the class path is the one that loading the image and the dependencies before that one
leads to, without what they depend on themselves. -/
theorem load_eq_error_iff : load host dependencies path s = ⟨.error e, t⟩ ↔
    s.hasLoaded (host.identity path) = false ∧
      (FailsAlone host path s e t ∨
        dependencies = true ∧ ∃ c, (host.openContainer path).outcome = .ok c ∧
          c.isBootImage = true ∧ ∃ before name after cause,
            c.bootClassPath = before ++ name :: after ∧ FailsAt host path s before name cause t ∧
            e = .during (if cause.isNoDexEntries then .imageDependencies path else .image path)
              cause) := by
  rcases load_cases host dependencies path s with
    ⟨hloaded, hload⟩ | ⟨e', u, hfalse, hload⟩ | ⟨b, notices, rfl, hb, hnew, hfalse, hload⟩
  · simp [hload, hloaded]
  · obtain ⟨hnew, halone⟩ := load_false_eq_error_iff.1 hfalse
    rw [hload]
    constructor
    · intro h
      cases h
      exact ⟨hnew, .inl halone⟩
    · intro ⟨_, h⟩
      rcases h with h | ⟨_, c, _, _, before, name, after, cause, _, h, _⟩
      · rw [← hfalse, load_false_eq_error_iff]
        exact ⟨hnew, h⟩
      · obtain ⟨v, himage⟩ := h.image_loads
        rw [hfalse] at himage
        cases himage
  · rw [hload]
    constructor
    · intro h
      split at h
      · rename_i hasked
        obtain ⟨cause, hcause, rfl⟩ := Ended.mapError_eq_error_iff.1 h
        obtain ⟨before, name, after, hsplit, hfails⟩ :=
          (forEach_loadSibling_eq_error_iff hfalse).1 hcause
        obtain ⟨hdependencies, himage⟩ := (Bool.and_eq_true_iff ..).1 hasked
        exact ⟨hnew, .inr ⟨hdependencies, b.container, hb.opens, himage, before, name, after, cause,
          hsplit, hfails, rfl⟩⟩
      · cases h
    · intro ⟨_, h⟩
      rcases h with h | ⟨hdependencies, c, hc, himage, before, name, after, cause, hsplit, h, rfl⟩
      · have hfails := load_false_eq_error_iff.2 ⟨hnew, h⟩
        rw [hfalse] at hfails
        cases hfails
      · obtain rfl := hb.container_eq hc
        rw [hdependencies, himage, Bool.and_true, if_pos rfl, Ended.mapError_eq_error_iff]
        exact ⟨cause, (forEach_loadSibling_eq_error_iff hfalse).2
          ⟨before, name, after, hsplit, h⟩, rfl⟩

/-- The first dependency is loaded, the second one is missing. -/
example : (load circle true ⟨"boot/second.oat"⟩ {}).session.loaded =
    [⟨"boot/second.oat"⟩, ⟨"boot/first.oat"⟩] := by decide

end DalvikLinkage.ClassPath
