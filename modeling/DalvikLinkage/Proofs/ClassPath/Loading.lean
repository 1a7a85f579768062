import DalvikLinkage.ClassPath.Session
import DalvikLinkage.Proofs.Machine
import Mathlib.Data.List.Pairwise

/-!
# What loading puts on a class path

The files that are loaded and the providers they gave are kept in two lists, which a load changes in
the middle: it can fail before that, when the file is no container or not all of its entries can be
read, and after that, when something it depends on cannot be loaded. So a load is taken apart into
its elementary changes. Opening a file changes neither list. Registering a container changes both at
once, by one `Block`, and only if its file was not loaded before. `Grows` are the sessions that such
changes lead to, and a load goes through no others, also while it is under way. What the two changes
keep therefore holds at every moment.

Results:
* `loadAlone_cases`: all that loading one file can do;
* `load_grows`: a load is made of openings and registrations;
* `Grows.providers`, `Grows.loaded`, `Grows.pairwise`: the class path is its blocks, one for each
  loaded file;
* `hasLoaded_of_load_eq_ok`: a load that succeeds leaves its file loaded;
* `run_blocks`: the class path after any calls, whether they fail or not.
-/
namespace DalvikLinkage.ClassPath

/-! ## Blocks -/

/-- What one container puts on a class path. -/
structure Block where
  path : Path
  container : Container
  entries : List Entry

namespace Block

/-- The entries as providers, under the path that the container was loaded through. -/
def providers (b : Block) : List Provider :=
  b.entries.map fun e => { container := b.path, entry := e }

/-- The container is the one at the path, and it has handed out one entry for each name that it
lists, in that order. -/
structure From (host : Host) (b : Block) : Prop where
  opens : (host.openContainer b.path).outcome = .ok b.container
  listed : b.container.entryNames ≠ []
  entries : b.entries.map some = b.container.entryNames.map b.container.entry?

end Block

/-- What a traversal collects are the values at the entries of the list. -/
theorem map_ok_of_mapM {ε α β : Type} {f : α → Except ε β} {l : List α} {bs : List β}
    (h : l.mapM f = .ok bs) : l.map f = bs.map .ok := by
  induction l generalizing bs with
  | nil => cases h; rfl
  | cons a l ih =>
    rw [List.mapM_cons] at h
    cases ha : f a with
    | error e => rw [ha] at h; cases h
    | ok b =>
      cases hl : l.mapM f with
      | error e => rw [ha, hl] at h; cases h
      | ok rest =>
        rw [ha, hl] at h
        cases h
        rw [List.map_cons, List.map_cons, ha, ih hl]

theorem map_some_of_entries {c : Container} {entries : List Entry} (h : c.entries = .ok entries) :
    entries.map some = c.entryNames.map c.entry? := by
  have hoption := congrArg (List.map Except.toOption) (map_ok_of_mapM h)
  rw [List.map_map, List.map_map] at hoption
  refine (List.map_congr_left fun e _ => rfl).trans (hoption.symm.trans ?_)
  refine List.map_congr_left fun name _ => ?_
  cases he : c.entry? name <;> simp [he, Except.toOption]

theorem from_of_entriesOf {host : Host} {path : Path} {c : Container} {entries : List Entry}
    (hopen : (host.openContainer path).outcome = .ok c) (h : entriesOf path c = .ok entries) :
    Block.From host ⟨path, c, entries⟩ := by
  unfold entriesOf at h
  split at h
  · cases h
  · next hne =>
    cases he : c.entries with
    | error missing => rw [he] at h; cases h
    | ok es =>
      rw [he] at h
      cases h
      exact ⟨hopen, fun hnil => hne (List.isEmpty_iff.2 hnil), map_some_of_entries he⟩

/-! ## Loading one file -/

namespace Session

/-- The session after a block was opened and registered. -/
def afterBlock (s : Session) (host : Host) (b : Block) (notices : List Notice) : Session :=
  (s.afterOpening b.path notices).register (host.identity b.path) b.path b.entries

variable {s : Session} {host : Host} {b : Block} {path : Path} {notices : List Notice}

@[simp] theorem providers_afterOpening :
    (s.afterOpening path notices).providers = s.providers := rfl

@[simp] theorem loaded_afterOpening : (s.afterOpening path notices).loaded = s.loaded := rfl

@[simp] theorem opened_afterOpening :
    (s.afterOpening path notices).opened = s.opened ++ [path] := rfl

@[simp] theorem providers_afterBlock :
    (s.afterBlock host b notices).providers = s.providers ++ b.providers := rfl

@[simp] theorem loaded_afterBlock :
    (s.afterBlock host b notices).loaded = s.loaded ++ [host.identity b.path] := rfl

@[simp] theorem opened_afterBlock :
    (s.afterBlock host b notices).opened = s.opened ++ [b.path] := rfl

theorem hasLoaded_of_mem {identity : Path} (h : identity ∈ s.loaded) :
    s.hasLoaded identity = true :=
  List.any_eq_true.2 ⟨identity, h, beq_self_eq_true identity.components⟩

theorem hasLoaded_eq_false_iff {identity : Path} :
    s.hasLoaded identity = false ↔ ∀ p ∈ s.loaded, identity.same p = false := by
  simp [hasLoaded]

end Session

/-- Loading one file does nothing if it is loaded already. Otherwise it opens the file, and then it
fails or registers one block. -/
theorem loadAlone_cases (host : Host) (path : Path) (s : Session) :
    (s.hasLoaded (host.identity path) = true ∧ loadAlone host path s = ⟨.ok none, s⟩) ∨
    (∃ e notices, loadAlone host path s = ⟨.error e, s.afterOpening path notices⟩) ∨
    ∃ b : Block, ∃ notices, b.path = path ∧ b.From host ∧
      s.hasLoaded (host.identity path) = false ∧
      loadAlone host path s = ⟨.ok (some b.container), s.afterBlock host b notices⟩ := by
  unfold loadAlone
  cases hl : s.hasLoaded (host.identity path) with
  | true => exact .inl ⟨rfl, if_pos rfl⟩
  | false =>
    rw [if_neg Bool.false_ne_true]
    right
    simp only [openAt]
    cases ho : (host.openContainer path).outcome with
    | error e => exact .inl ⟨_, _, rfl⟩
    | ok c =>
      dsimp only
      cases he : entriesOf path c with
      | error e => exact .inl ⟨_, _, rfl⟩
      | ok entries =>
        exact .inr ⟨⟨path, c, entries⟩, _, rfl, from_of_entriesOf ho he, trivial, rfl⟩

/-! ## Elementary changes -/

/-- From `s` the session gets to be `t` by registering these blocks in this order, and by opening
files, in vain or to inspect them, in between. -/
inductive Grows (host : Host) (s : Session) : List Block → Session → Prop
  | refl : Grows host s [] s
  | opening {blocks : List Block} {t : Session} (h : Grows host s blocks t) (path : Path)
    (notices : List Notice) : Grows host s blocks (t.afterOpening path notices)
  | load {blocks : List Block} {t : Session} (h : Grows host s blocks t) {b : Block}
    (hb : b.From host) (hnew : t.hasLoaded (host.identity b.path) = false)
    (notices : List Notice) : Grows host s (blocks ++ [b]) (t.afterBlock host b notices)

variable {host : Host} {s t u : Session} {blocks more : List Block}

theorem Grows.trans (h : Grows host s blocks t) (h' : Grows host t more u) :
    Grows host s (blocks ++ more) u := by
  induction h' with
  | refl => rwa [List.append_nil]
  | opening _ path notices ih => exact ih.opening path notices
  | load _ hb hnew notices ih => rw [← List.append_assoc]; exact ih.load hb hnew notices

theorem loadAlone_grows (host : Host) (path : Path) (s : Session) :
    ∃ blocks, Grows host s blocks (loadAlone host path s).session := by
  rcases loadAlone_cases host path s with ⟨-, h⟩ | ⟨e, notices, h⟩ | ⟨b, notices, rfl, hb, hnew, h⟩
  · exact ⟨[], by rw [h]; exact .refl⟩
  · exact ⟨[], by rw [h]; exact .opening .refl path notices⟩
  · exact ⟨[b], by rw [h]; exact .load .refl hb hnew notices⟩

theorem andThen_grows {α β : Type} {x : Ended α} {next : α → Session → Ended β}
    (hx : ∃ blocks, Grows host s blocks x.session)
    (hnext : ∀ a t, ∃ blocks, Grows host t blocks (next a t).session) :
    ∃ blocks, Grows host s blocks (x.andThen next).session := by
  obtain ⟨blocks, hb⟩ := hx
  unfold Ended.andThen
  split
  · next a _ =>
    obtain ⟨more, hm⟩ := hnext a x.session
    exact ⟨blocks ++ more, hb.trans hm⟩
  · exact ⟨blocks, hb⟩

theorem loadSiblings_grows (host : Host) (directory : Path) (dependencies : List String)
    (s : Session) :
    ∃ blocks, Grows host s blocks (loadSiblings host directory dependencies s).session := by
  induction dependencies generalizing s with
  | nil => exact ⟨[], .refl⟩
  | cons dependency rest ih =>
    simp only [loadSiblings]
    split
    · exact andThen_grows (loadAlone_grows host _ s) fun _ t => ih t
    · exact ⟨[], .refl⟩

/-- Whatever comes of a load, the session has only grown. -/
theorem load_grows (host : Host) (dependencies : Bool) (path : Path) (s : Session) :
    ∃ blocks, Grows host s blocks (load host dependencies path s).session := by
  unfold load
  refine andThen_grows (loadAlone_grows host path s) fun c t => ?_
  cases c with
  | none => exact ⟨[], .refl⟩
  | some c =>
    dsimp only
    split
    · exact loadSiblings_grows host path.parent c.bootClassPath t
    · exact ⟨[], .refl⟩

/-! ## What the changes keep -/

namespace Grows

theorem providers (h : Grows host s blocks t) :
    t.providers = s.providers ++ blocks.flatMap Block.providers := by
  induction h with
  | refl => simp
  | opening _ path notices ih => rw [Session.providers_afterOpening, ih]
  | load _ _ _ notices ih => simp [ih]

theorem loaded (h : Grows host s blocks t) :
    t.loaded = s.loaded ++ blocks.map (host.identity ·.path) := by
  induction h with
  | refl => simp
  | opening _ path notices ih => rw [Session.loaded_afterOpening, ih]
  | load _ _ _ notices ih => simp [ih]

theorem hasLoaded {identity : Path} (h : Grows host s blocks t)
    (hs : s.hasLoaded identity = true) : t.hasLoaded identity = true := by
  rw [Session.hasLoaded, h.loaded, List.any_append]
  exact Bool.or_eq_true_iff.2 (.inl hs)

theorem from_host (h : Grows host s blocks t) : ∀ b ∈ blocks, b.From host := by
  induction h with
  | refl => simp
  | opening _ _ _ ih => exact ih
  | load _ hb _ _ ih =>
    intro b hm
    rcases List.mem_append.1 hm with hm | hm
    · exact ih b hm
    · exact List.mem_singleton.1 hm ▸ hb

/-- The blocks are in the order in which their files were opened. -/
theorem opened (h : Grows host s blocks t) :
    ∃ paths, t.opened = s.opened ++ paths ∧ (blocks.map (·.path)).Sublist paths := by
  induction h with
  | refl => exact ⟨[], by simp⟩
  | opening _ path _ ih =>
    obtain ⟨paths, hp, hsub⟩ := ih
    exact ⟨paths ++ [path], by simp [hp], hsub.trans (List.sublist_append_left paths [path])⟩
  | @load _ _ _ b _ _ _ ih =>
    obtain ⟨paths, hp, hsub⟩ := ih
    exact ⟨paths ++ [b.path], by simp [hp], by simpa using hsub.append (List.Sublist.refl [b.path])⟩

/-- A file is not loaded when its block is registered, so it was not loaded before. -/
theorem not_hasLoaded (h : Grows host s blocks t) :
    ∀ b ∈ blocks, s.hasLoaded (host.identity b.path) = false := by
  induction h with
  | refl => simp
  | opening _ _ _ ih => exact ih
  | load h _ hnew _ ih =>
    intro b hb
    rcases List.mem_append.1 hb with hb | hb
    · exact ih b hb
    · obtain rfl := List.mem_singleton.1 hb
      cases hs : s.hasLoaded (host.identity b.path) with
      | false => rfl
      | true => rw [h.hasLoaded hs] at hnew; cases hnew

theorem pairwise_blocks (h : Grows host s blocks t) :
    blocks.Pairwise fun a b => (host.identity a.path).same (host.identity b.path) = false := by
  induction h with
  | refl => exact .nil
  | opening _ _ _ ih => exact ih
  | @load _ u h _ _ hnew _ ih =>
    refine List.pairwise_append.2 ⟨ih, List.pairwise_singleton _ _, fun a ha b hb => ?_⟩
    obtain rfl := List.mem_singleton.1 hb
    have hmem : host.identity a.path ∈ u.loaded := by
      rw [h.loaded]
      exact List.mem_append_right _ (List.mem_map_of_mem ha)
    rw [Path.same, BEq.comm]
    exact Session.hasLoaded_eq_false_iff.1 hnew _ hmem

/-- No file is loaded a second time. -/
theorem pairwise (h : Grows host s blocks t)
    (hs : s.loaded.Pairwise fun p q => p.same q = false) :
    t.loaded.Pairwise fun p q => p.same q = false := by
  rw [h.loaded, List.pairwise_append, List.pairwise_map]
  refine ⟨hs, h.pairwise_blocks, fun p hp q hq => ?_⟩
  obtain ⟨b, hb, rfl⟩ := List.mem_map.1 hq
  rw [Path.same, BEq.comm]
  exact Session.hasLoaded_eq_false_iff.1 (h.not_hasLoaded b hb) p hp

end Grows

/-- A file is loaded once a load of it has succeeded. -/
theorem hasLoaded_of_load_eq_ok {dependencies : Bool} {path : Path}
    (h : (load host dependencies path s).outcome = .ok ()) :
    (load host dependencies path s).session.hasLoaded (host.identity path) = true := by
  unfold load Ended.andThen at *
  rcases loadAlone_cases host path s with
    ⟨hloaded, ha⟩ | ⟨e, notices, ha⟩ | ⟨b, notices, rfl, -, -, ha⟩
  · rw [ha]
    exact hloaded
  · rw [ha] at h
    cases h
  · rw [ha]
    have hb : (s.afterBlock host b notices).hasLoaded (host.identity b.path) = true :=
      Session.hasLoaded_of_mem (List.mem_append_right _ List.mem_cons_self)
    dsimp only
    split
    · obtain ⟨blocks, hg⟩ := loadSiblings_grows host b.path.parent b.container.bootClassPath
        (s.afterBlock host b notices)
      exact hg.hasLoaded hb
    · exact hb

/-! ## Runs -/

/-- The calls of a session: load a file, with or without what it depends on. A failed call ends and
the next one goes on from there. -/
def calls (host : Host) : Machine Session (Path × Bool) where
  Admits _ _ := True
  step s call := (load host call.2 call.1 s).session

theorem run_grows (host : Host) (cs : List (Path × Bool)) (s : Session) :
    ∃ blocks, Grows host s blocks ((calls host).run s cs) := by
  induction cs generalizing s with
  | nil => exact ⟨[], .refl⟩
  | cons call cs ih =>
    obtain ⟨blocks, hb⟩ := load_grows host call.2 call.1 s
    obtain ⟨more, hm⟩ := ih (load host call.2 call.1 s).session
    exact ⟨blocks ++ more, hb.trans hm⟩

/-- **A class path is one block for each loaded file.** Whatever was loaded, through whatever paths
and whether it failed or not, the providers are blocks in the order of loading, one for each
identity that is loaded and no two for one file. Each block has one provider for each name that its
container lists, in that order and under the path it was loaded through. A call that succeeds leaves
its file loaded. Calls that follow leave the providers there are and add theirs at the end. -/
theorem run_blocks (host : Host) (cs : List (Path × Bool)) :
    ∃ blocks : List Block,
      ((calls host).run {} cs).providers = blocks.flatMap Block.providers ∧
      ((calls host).run {} cs).loaded = blocks.map (host.identity ·.path) ∧
      (∀ b ∈ blocks, b.From host) ∧
      (blocks.Pairwise fun a b =>
        (host.identity a.path).same (host.identity b.path) = false) ∧
      (blocks.map (·.path)).Sublist ((calls host).run {} cs).opened ∧
      (∀ path dependencies,
        (load host dependencies path ((calls host).run {} cs)).outcome = .ok () →
        ((calls host).run {} (cs ++ [(path, dependencies)])).hasLoaded (host.identity path) =
          true) ∧
      ∀ later, ∃ added : List Block,
        ((calls host).run {} (cs ++ later)).providers =
          (blocks ++ added).flatMap Block.providers := by
  obtain ⟨blocks, h⟩ := run_grows host cs {}
  have hproviders : ((calls host).run {} cs).providers = blocks.flatMap Block.providers :=
    h.providers
  have hloaded : ((calls host).run {} cs).loaded = blocks.map (host.identity ·.path) := h.loaded
  have hpairwise := h.pairwise List.Pairwise.nil
  rw [hloaded, List.pairwise_map] at hpairwise
  obtain ⟨paths, hopened, hsub⟩ := h.opened
  refine ⟨blocks, hproviders, hloaded, h.from_host, hpairwise, hopened ▸ hsub,
    fun path dependencies hok => ?_, fun later => ?_⟩
  · rw [Machine.run, List.foldl_append]
    exact hasLoaded_of_load_eq_ok hok
  obtain ⟨added, ha⟩ := run_grows host later ((calls host).run {} cs)
  refine ⟨added, ?_⟩
  rw [Machine.run, List.foldl_append, ← Machine.run, ← Machine.run, ha.providers, hproviders,
    List.flatMap_append]

end DalvikLinkage.ClassPath
