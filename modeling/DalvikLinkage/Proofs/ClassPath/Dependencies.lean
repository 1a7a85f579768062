import DalvikLinkage.Proofs.ClassPath.Loading

/-!
# Loading an image with what it depends on

An image names other files, and a load that is asked to brings them in too. It looks for them next
to the image, and for nothing that those files name in turn. So a load with dependencies is nothing
but a list of loads without: of the image itself, and of its siblings in the order in which the
image names them. Each of these does nothing if its file is loaded already. That takes care of
images that name themselves, that name each other and that name one file twice.

What is loaded already is skipped as a whole, dependencies included. A load that succeeds therefore
says that the dependencies are there only if the image was not loaded before.

Results:
* `load_cases`: all that a load can do;
* `load_eq_ok_iff`: a load that succeeds is a list of loads without dependencies;
* `forEach_load_grows`: what such a list loads are the files that are fresh;
* `load_adds_fresh`: what a load adds to the class path;
* `bringsDependencies_iff`: when the dependencies of an image are loaded.
-/
namespace DalvikLinkage.ClassPath

/-! ## Work in steps -/

section Steps

variable {α β : Type} {x : Ended α} {next : α → Session → Ended β} {a : α} {b : β} {e : Error}
  {s t : Session}

namespace Ended

theorem eq_of_outcome (h : x.outcome = .ok a) : x = ⟨.ok a, x.session⟩ := by
  rw [← h]

theorem andThen_eq_ok_iff : x.andThen next = ⟨.ok b, t⟩ ↔
    ∃ a u, x = ⟨.ok a, u⟩ ∧ next a u = ⟨.ok b, t⟩ := by
  obtain ⟨outcome, u⟩ := x
  cases outcome with
  | error e => simp [andThen]
  | ok a =>
    constructor
    · intro h
      exact ⟨a, u, rfl, h⟩
    · rintro ⟨a, u, h, hnext⟩
      cases h
      exact hnext

theorem andThen_eq_error_iff : x.andThen next = ⟨.error e, t⟩ ↔
    x = ⟨.error e, t⟩ ∨ ∃ a u, x = ⟨.ok a, u⟩ ∧ next a u = ⟨.error e, t⟩ := by
  obtain ⟨outcome, u⟩ := x
  cases outcome with
  | error e => simp [andThen]
  | ok a =>
    constructor
    · intro h
      exact .inr ⟨a, u, rfl, h⟩
    · rintro (h | ⟨a, u, h, hnext⟩)
      · cases h
      · cases h
        exact hnext

theorem mapError_eq_ok_iff {f : Error → Error} :
    x.mapError f = ⟨.ok a, t⟩ ↔ x = ⟨.ok a, t⟩ := by
  obtain ⟨outcome, u⟩ := x
  cases outcome with
  | error e =>
    constructor
    · intro h
      cases h
    · intro h
      cases h
  | ok a => rfl

theorem mapError_eq_error_iff {f : Error → Error} :
    x.mapError f = ⟨.error e, t⟩ ↔ ∃ cause, x = ⟨.error cause, t⟩ ∧ f cause = e := by
  obtain ⟨outcome, u⟩ := x
  cases outcome with
  | ok a =>
    constructor
    · intro h
      cases h
    · intro h
      obtain ⟨cause, h, -⟩ := h
      cases h
  | error cause =>
    constructor
    · intro h
      cases h
      exact ⟨cause, rfl, rfl⟩
    · rintro ⟨cause, h, rfl⟩
      cases h
      rfl

end Ended

variable {work : α → Session → Ended Unit} {l : List α}

theorem forEach_cons_eq_ok_iff : forEach work (a :: l) s = ⟨.ok (), t⟩ ↔
    ∃ u, work a s = ⟨.ok (), u⟩ ∧ forEach work l u = ⟨.ok (), t⟩ := by
  rw [forEach, Ended.andThen_eq_ok_iff]
  exact ⟨fun ⟨_, u, h⟩ => ⟨u, h⟩, fun ⟨u, h⟩ => ⟨(), u, h⟩⟩

theorem forEach_cons_of_eq_ok {u : Session} (h : work a s = ⟨.ok (), u⟩) :
    forEach work (a :: l) s = forEach work l u := by
  rw [forEach, h]
  rfl

end Steps

/-! ## A load is a list of loads -/

/-- Where a file that an image depends on is looked for. -/
def sibling (image : Path) (name : String) : Path :=
  image.parent.join (dependencyFileName name)

/-- Loads one file that an image depends on, without what it depends on itself. -/
def loadSibling (host : Host) (image : Path) (name : String) (s : Session) : Ended Unit :=
  if host.isPresent (sibling image name) then load host false (sibling image name) s
  else ⟨.error (.dependencyNotFound (dependencyFileName name) image.parent.text), s⟩

/-- The files that a load of a container brings in besides the container itself. -/
def siblings (dependencies : Bool) (image : Path) (c : Container) : List Path :=
  if dependencies && c.isBootImage then c.bootClassPath.map (sibling image) else []

variable {host : Host} {path image : Path} {dependencies : Bool} {c : Container} {e : Error}
  {names : List String} {files : List Path} {s t : Session}

theorem load_false (host : Host) (path : Path) (s : Session) :
    load host false path s = (loadAlone host path s).andThen fun _ t => ⟨.ok (), t⟩ := by
  unfold load
  congr
  funext c t
  cases c <;> rfl

theorem loadSiblings_eq_forEach (host : Host) (image : Path) (names : List String) (s : Session) :
    loadSiblings host image.parent names s = forEach (loadSibling host image) names s := by
  induction names generalizing s with
  | nil => rfl
  | cons name names ih =>
    rw [loadSiblings, forEach, loadSibling, sibling, load_false]
    split
    · unfold Ended.andThen
      cases (loadAlone host (image.parent.join (dependencyFileName name)) s).outcome with
      | error e => rfl
      | ok c => exact ih _
    · rfl

/-- A load does nothing if its file is loaded already. Otherwise it fails on the file itself, or it
registers one block and then goes on to the dependencies, if it is asked to and there are any. -/
theorem load_cases (host : Host) (dependencies : Bool) (path : Path) (s : Session) :
    (s.hasLoaded (host.identity path) = true ∧ load host dependencies path s = ⟨.ok (), s⟩) ∨
    (∃ e t, load host false path s = ⟨.error e, t⟩ ∧
      load host dependencies path s = ⟨.error e, t⟩) ∨
    ∃ b : Block, ∃ notices, b.path = path ∧ b.From host ∧
      s.hasLoaded (host.identity path) = false ∧
      load host false path s = ⟨.ok (), s.afterBlock host b notices⟩ ∧
      load host dependencies path s =
        if dependencies && b.container.isBootImage then
          (forEach (loadSibling host path) b.container.bootClassPath
            (s.afterBlock host b notices)).mapError (dependencyError path)
        else ⟨.ok (), s.afterBlock host b notices⟩ := by
  rw [load_false, load]
  rcases loadAlone_cases host path s with
    ⟨hloaded, h⟩ | ⟨e, notices, h⟩ | ⟨b, notices, hpath, hb, hnew, h⟩
  · exact .inl ⟨hloaded, by rw [h]; rfl⟩
  · exact .inr (.inl ⟨e, _, by rw [h]; rfl, by rw [h]; rfl⟩)
  · refine .inr (.inr ⟨b, notices, hpath, hb, hnew, by rw [h]; rfl, ?_⟩)
    rw [h, ← loadSiblings_eq_forEach]
    rfl

theorem Block.From.container_eq {b : Block} (h : b.From host)
    (hc : (host.openContainer b.path).outcome = .ok c) : b.container = c :=
  Except.ok.inj (h.opens.symm.trans hc)

theorem load_eq_of_hasLoaded (h : s.hasLoaded (host.identity path) = true) :
    load host dependencies path s = ⟨.ok (), s⟩ := by
  rw [load, loadAlone, if_pos h]
  rfl

/-- The siblings of an image can be loaded if all of them are there and each of them can be loaded
by itself. -/
theorem forEach_loadSibling_eq_ok_iff :
    forEach (loadSibling host image) names s = ⟨.ok (), t⟩ ↔
      (∀ name ∈ names, host.isPresent (sibling image name) = true) ∧
        forEach (load host false) (names.map (sibling image)) s = ⟨.ok (), t⟩ := by
  induction names generalizing s with
  | nil => simp [forEach]
  | cons name names ih =>
    simp only [List.map_cons, forEach_cons_eq_ok_iff, ih, loadSibling, List.forall_mem_cons]
    by_cases hpresent : host.isPresent (sibling image name) = true
    · simp only [hpresent, if_true, true_and]
      constructor
      · rintro ⟨u, hload, hall, hrest⟩
        exact ⟨hall, u, hload, hrest⟩
      · rintro ⟨hall, u, hload, hrest⟩
        exact ⟨u, hload, hall, hrest⟩
    · simp [hpresent]

/-- **A load that succeeds is a list of loads without dependencies.** -/
theorem load_eq_ok_iff (hnew : s.hasLoaded (host.identity path) = false)
    (hc : (host.openContainer path).outcome = .ok c) :
    load host dependencies path s = ⟨.ok (), t⟩ ↔
      (∀ file ∈ siblings dependencies path c, host.isPresent file = true) ∧
        forEach (load host false) (path :: siblings dependencies path c) s = ⟨.ok (), t⟩ := by
  rcases load_cases host dependencies path s with
    ⟨hloaded, -⟩ | ⟨e, u, hfalse, hload⟩ | ⟨b, notices, rfl, hb, -, hfalse, hload⟩
  · rw [hnew] at hloaded
    cases hloaded
  · rw [hload, forEach, hfalse]
    simp [Ended.andThen]
  · obtain rfl := hb.container_eq hc
    rw [hload, forEach_cons_of_eq_ok hfalse, siblings]
    split
    · rw [Ended.mapError_eq_ok_iff, forEach_loadSibling_eq_ok_iff, List.forall_mem_map]
    · simp [forEach]

/-! ## What is fresh -/

/-- The files that are not loaded yet, and of those with one identity the first. -/
def Host.fresh (host : Host) (loaded files : List Path) : List Path :=
  (files.filter fun file => !loaded.any (host.identity file).same).eraseDupsBy
    fun p q => (host.identity p).same (host.identity q)

section Fresh

variable {file : Path} {loaded : List Path} {blocks : List Block}

theorem fresh_cons_of_loaded (h : loaded.any (host.identity file).same = true) :
    host.fresh loaded (file :: files) = host.fresh loaded files := by
  rw [Host.fresh, List.filter_cons_of_neg (by simp [h]), Host.fresh]

theorem fresh_cons_of_new (h : loaded.any (host.identity file).same = false) :
    host.fresh loaded (file :: files) =
      file :: host.fresh (loaded ++ [host.identity file]) files := by
  rw [Host.fresh, List.filter_cons_of_pos (by simp [h]), List.eraseDupsBy_cons, List.filter_filter,
    Host.fresh]
  congr 2
  refine List.filter_congr fun p _ => ?_
  simp [Bool.and_comm]

/-- Loading files in turn registers the fresh ones, opens nothing else, and leaves all of them
loaded. -/
theorem forEach_load_grows (h : forEach (load host false) files s = ⟨.ok (), t⟩) :
    ∃ blocks, Grows host s blocks t ∧ blocks.map (·.path) = host.fresh s.loaded files ∧
      t.opened = s.opened ++ blocks.map (·.path) ∧
      ∀ file ∈ files, t.hasLoaded (host.identity file) = true := by
  induction files generalizing s with
  | nil =>
    cases h
    exact ⟨[], .refl, rfl, by simp, by simp⟩
  | cons file files ih =>
    obtain ⟨u, hfile, hfiles⟩ := forEach_cons_eq_ok_iff.1 h
    obtain ⟨blocks, hgrows, hpaths, hopened, hall⟩ := ih hfiles
    have hloaded : u.hasLoaded (host.identity file) = true := by
      have hload := hasLoaded_of_load_eq_ok (congrArg Ended.outcome hfile)
      rwa [hfile] at hload
    have hall' : ∀ other ∈ file :: files, t.hasLoaded (host.identity other) = true :=
      List.forall_mem_cons.2 ⟨hgrows.hasLoaded hloaded, hall⟩
    rcases load_cases host false file s with
      ⟨hbefore, hload⟩ | ⟨e, v, -, hload⟩ | ⟨b, notices, rfl, hb, hnew, hload, -⟩
    · rw [hfile] at hload
      cases hload
      exact ⟨blocks, hgrows, by rw [hpaths, fresh_cons_of_loaded hbefore], hopened, hall'⟩
    · rw [hfile] at hload
      cases hload
    · rw [hfile] at hload
      cases hload
      refine ⟨b :: blocks, Grows.trans (.load .refl hb hnew notices) hgrows, ?_, ?_, hall'⟩
      · rw [List.map_cons, hpaths, fresh_cons_of_new hnew, Session.loaded_afterBlock]
      · rw [hopened, Session.opened_afterBlock, List.append_assoc]
        rfl

end Fresh

/-! ## What a load adds -/

theorem exists_container_of_load (hnew : s.hasLoaded (host.identity path) = false)
    (h : load host dependencies path s = ⟨.ok (), t⟩) :
    ∃ c, (host.openContainer path).outcome = .ok c := by
  rcases load_cases host dependencies path s with
    ⟨hloaded, -⟩ | ⟨e, u, -, hload⟩ | ⟨b, notices, rfl, hb, -, -, -⟩
  · rw [hnew] at hloaded
    cases hloaded
  · rw [hload] at h
    cases h
  · exact ⟨b.container, hb.opens⟩

/-- What a load of a file adds to a session, from `s` to `t`: the block of the file, and behind it
the blocks of its siblings that are fresh. -/
structure Adds (host : Host) (dependencies : Bool) (path : Path) (s t : Session) (b : Block)
    (blocks : List Block) : Prop where
  path_eq : b.path = path
  from_host : ∀ x ∈ b :: blocks, x.From host
  /-- The siblings are loaded in the order in which the image names them, each file once. -/
  fresh : blocks.map (·.path) =
    host.fresh (s.loaded ++ [host.identity path]) (siblings dependencies path b.container)
  no_siblings : (dependencies && b.container.isBootImage) = false → blocks = []
  /-- Nothing else is opened. -/
  opened : t.opened = s.opened ++ path :: blocks.map (·.path)
  loaded : t.loaded = s.loaded ++ host.identity path :: blocks.map (host.identity ·.path)
  providers : t.providers = s.providers ++ (b.providers ++ blocks.flatMap Block.providers)
  not_loaded : ∀ x ∈ b :: blocks, s.hasLoaded (host.identity x.path) = false
  distinct : (b :: blocks).Pairwise fun x y =>
    (host.identity x.path).same (host.identity y.path) = false
  all_loaded : ∀ file ∈ siblings dependencies path b.container,
    t.hasLoaded (host.identity file) = true
  /-- The siblings are loaded without what they depend on themselves. -/
  one_by_one : forEach (load host false) (path :: siblings dependencies path b.container) s =
    ⟨.ok (), t⟩

/-- **A load adds its file and the siblings that are fresh.** A load that succeeds, of a file that
was not loaded, opens the file and then those of its siblings that are not loaded yet, one for each
identity, in the order in which the image names them. It puts just these on the class path, in the
same order. -/
theorem load_adds_fresh (hnew : s.hasLoaded (host.identity path) = false)
    (hok : load host dependencies path s = ⟨.ok (), t⟩) :
    ∃ b blocks, Adds host dependencies path s t b blocks := by
  obtain ⟨c, hc⟩ := exists_container_of_load hnew hok
  have hlist := ((load_eq_ok_iff hnew hc).1 hok).2
  obtain ⟨added, hgrows, hpaths, hopened, hall⟩ := forEach_load_grows hlist
  rw [fresh_cons_of_new hnew] at hpaths
  obtain ⟨b, blocks, rfl, rfl, hblocks⟩ := List.map_eq_cons_iff.1 hpaths
  have hfrom := hgrows.from_host
  obtain rfl := (hfrom b List.mem_cons_self).container_eq hc
  refine ⟨b, blocks, rfl, hfrom, hblocks, fun hnone => ?_, hopened, hgrows.loaded,
    hgrows.providers, hgrows.not_hasLoaded, hgrows.pairwise_blocks,
    fun file hfile => hall file (List.mem_cons_of_mem _ hfile), hlist⟩
  rw [siblings, if_neg (by simp [hnone])] at hblocks
  exact List.map_eq_nil_iff.1 hblocks

/-- An image with one entry, compiled against these files. -/
def imageOf (entry : String) (bootClassPath : List String) : Container :=
  { Container.single ⟨entry, #[]⟩ with isBootImage := true, bootClassPath }

/-- Two images that name each other. The first one also names itself and, through a link, the second
one again; the second one also names a file that does not exist. -/
def circle : Host where
  identity p := if p.text = "boot/link.oat" then ⟨"boot/second.oat"⟩ else p
  isFile _ := true
  isDirectory _ := false
  isPresent p := p.text != "boot/gone.oat"
  openContainer p :=
    if p.text = "boot/first.oat" then
      Logged.value (imageOf "first.dex" ["/system/first.art", "link.art", "/system/second.art"])
    else Logged.value (imageOf "second.dex" ["first.art", "gone.art"])

theorem load_adds_fresh_circle :
    ({} : Session).hasLoaded (circle.identity ⟨"boot/first.oat"⟩) = false ∧
    ∃ t, load circle true ⟨"boot/first.oat"⟩ {} = ⟨.ok (), t⟩ ∧
      t.opened = [⟨"boot/first.oat"⟩, ⟨"boot/link.oat"⟩] ∧
      t.loaded.length = 2 ∧
      t.hasLoaded (circle.identity ⟨"boot/second.oat"⟩) = true := by
  have hnew : ({} : Session).hasLoaded (circle.identity ⟨"boot/first.oat"⟩) = false := rfl
  have houtcome : (load circle true ⟨"boot/first.oat"⟩ {}).outcome = .ok () := rfl
  have hok := Ended.eq_of_outcome houtcome
  obtain ⟨b, blocks, hadds⟩ := load_adds_fresh hnew hok
  have hcontainer : b.container =
      imageOf "first.dex" ["/system/first.art", "link.art", "/system/second.art"] :=
    (hadds.from_host b List.mem_cons_self).container_eq (by rw [hadds.path_eq]; rfl)
  have hfresh := hadds.fresh
  have hall := hadds.all_loaded
  rw [hcontainer] at hfresh hall
  have hblocks : blocks.map (·.path) = [⟨"boot/link.oat"⟩] := hfresh.trans (by decide)
  refine ⟨hnew, _, hok, ?_, ?_, hall _ (by decide)⟩
  · rw [hadds.opened, hblocks]
    rfl
  · have hlength := congrArg List.length hblocks
    rw [List.length_map] at hlength
    rw [hadds.loaded, List.length_append, List.length_cons, List.length_map, hlength]
    rfl

/-! ## When the dependencies are there -/

/-- A load of the image at that path, with its dependencies and after these calls, leaves all that
the image depends on loaded if it succeeds. -/
def BringsDependencies (host : Host) (cs : List (Path × Bool)) (path : Path) : Prop :=
  ∀ c, (host.openContainer path).outcome = .ok c → c.isBootImage = true →
    (load host true path ((calls host).run {} cs)).outcome = .ok () →
    ∀ name ∈ c.bootClassPath, ((calls host).run {} (cs ++ [(path, true)])).hasLoaded
      (host.identity (sibling path name)) = true

theorem run_append_call (cs : List (Path × Bool)) :
    (calls host).run s (cs ++ [(path, dependencies)]) =
      (load host dependencies path ((calls host).run s cs)).session := by
  rw [Machine.run, List.foldl_append]
  rfl

theorem hasLoaded_sibling_of_load (hnew : s.hasLoaded (host.identity path) = false)
    (hopen : (host.openContainer path).outcome = .ok c) (himage : c.isBootImage = true)
    (hok : (load host true path s).outcome = .ok ()) {name : String}
    (hname : name ∈ c.bootClassPath) :
    (load host true path s).session.hasLoaded (host.identity (sibling path name)) = true := by
  have hlist := ((load_eq_ok_iff hnew hopen).1 (Ended.eq_of_outcome hok)).2
  obtain ⟨blocks, -, -, -, hall⟩ := forEach_load_grows hlist
  have hsibling : sibling path name ∈ siblings true path c := by
    rw [siblings, himage]
    exact List.mem_map_of_mem hname
  exact hall _ (List.mem_cons_of_mem _ hsibling)

/-- **Whoever loads an image first gets its dependencies.** A load of an image with its dependencies,
after any calls, leaves all that the image depends on loaded if the file of the image was not loaded
before, and otherwise only if all of that was loaded as well. If the file was loaded, the load
succeeds and does nothing, whether the dependencies were wanted then or could not be loaded. What is
loaded stays loaded, whatever calls follow. -/
theorem bringsDependencies_iff (cs : List (Path × Bool))
    (hopen : (host.openContainer path).outcome = .ok c) (himage : c.isBootImage = true) :
    (BringsDependencies host cs path ↔
      ((calls host).run {} cs).hasLoaded (host.identity path) = false ∨
      ∀ name ∈ c.bootClassPath,
        ((calls host).run {} cs).hasLoaded (host.identity (sibling path name)) = true) ∧
    (((calls host).run {} cs).hasLoaded (host.identity path) = true →
      load host true path ((calls host).run {} cs) = ⟨.ok (), (calls host).run {} cs⟩) ∧
    ∀ later identity, ((calls host).run {} cs).hasLoaded identity = true →
      ((calls host).run {} (cs ++ later)).hasLoaded identity = true := by
  refine ⟨⟨fun h => ?_, fun h => ?_⟩, load_eq_of_hasLoaded, fun later identity hloaded => ?_⟩
  · cases hloaded : ((calls host).run {} cs).hasLoaded (host.identity path) with
    | false => exact .inl rfl
    | true =>
      have hload : load host true path ((calls host).run {} cs) = ⟨.ok (), _⟩ :=
        load_eq_of_hasLoaded hloaded
      refine .inr fun name hname => ?_
      have hafter := h c hopen himage (by rw [hload]) name hname
      rwa [run_append_call, hload] at hafter
  · intro c' hopen' _ hok name hname
    obtain rfl : c' = c := Except.ok.inj (hopen'.symm.trans hopen)
    rw [run_append_call]
    rcases h with hnew | hall
    · exact hasLoaded_sibling_of_load hnew hopen himage hok hname
    · obtain ⟨blocks, hgrows⟩ := load_grows host true path ((calls host).run {} cs)
      exact hgrows.hasLoaded (hall name hname)
  · obtain ⟨blocks, hgrows⟩ := run_grows host later ((calls host).run {} cs)
    rw [Machine.run, List.foldl_append]
    exact hgrows.hasLoaded hloaded

theorem bringsDependencies_iff_circle :
    (circle.openContainer ⟨"boot/second.oat"⟩).outcome =
      .ok (imageOf "second.dex" ["first.art", "gone.art"]) ∧
    (imageOf "second.dex" ["first.art", "gone.art"]).isBootImage = true ∧
    load circle true ⟨"boot/second.oat"⟩ ((calls circle).run {} [(⟨"boot/first.oat"⟩, true)]) =
      ⟨.ok (), (calls circle).run {} [(⟨"boot/first.oat"⟩, true)]⟩ ∧
    ¬BringsDependencies circle [(⟨"boot/first.oat"⟩, true)] ⟨"boot/second.oat"⟩ ∧
    BringsDependencies circle [(⟨"boot/second.oat"⟩, false)] ⟨"boot/first.oat"⟩ := by
  have hsecond : (circle.openContainer ⟨"boot/second.oat"⟩).outcome =
    .ok (imageOf "second.dex" ["first.art", "gone.art"]) := rfl
  have hfirst : (circle.openContainer ⟨"boot/first.oat"⟩).outcome =
    .ok (imageOf "first.dex" ["/system/first.art", "link.art", "/system/second.art"]) := rfl
  have hlinked := bringsDependencies_iff [(⟨"boot/first.oat"⟩, true)] hsecond rfl
  refine ⟨hsecond, rfl, hlinked.2.1 (by decide), fun h => ?_,
    (bringsDependencies_iff [(⟨"boot/second.oat"⟩, false)] hfirst rfl).1.2 (.inl (by decide))⟩
  rcases hlinked.1.1 h with hnew | hall
  · revert hnew
    decide
  · have hgone := hall "gone.art" (by decide)
    revert hgone
    decide

/-- An image whose one dependency is present or not. -/
def shelf (present : Bool) : Host where
  identity p := p
  isFile _ := true
  isDirectory _ := false
  isPresent _ := present
  openContainer p :=
    if p.text = "boot.oat" then Logged.value (imageOf "boot.dex" ["/system/core.art"])
    else Logged.value (imageOf "core.dex" [])

/-- An image that was loaded without its dependencies does not get them later, and one whose
dependency is missing is loaded without complaint the second time. -/
theorem not_bringsDependencies_again :
    ¬BringsDependencies (shelf true) [(⟨"boot.oat"⟩, false)] ⟨"boot.oat"⟩ ∧
    ¬BringsDependencies (shelf false) [(⟨"boot.oat"⟩, true)] ⟨"boot.oat"⟩ := by
  constructor
  · intro h
    have hcore := h _ rfl rfl rfl "/system/core.art" (by decide)
    revert hcore
    decide
  · intro h
    have hcore := h _ rfl rfl rfl "/system/core.art" (by decide)
    revert hcore
    decide

end DalvikLinkage.ClassPath
