import DalvikLinkage.ClassPath.Dependency
import DalvikLinkage.Container.Basic

/-!
# Sessions

A session puts containers on the class path. A file is loaded at most once, whatever path leads to
it; its entries become providers, in the order of loading. What an image depends on is loaded next
to it, one level deep.

A session goes on after a failed load, so a load has an end state whether it succeeds or not. A
container is on the class path if and only if all its entries could be read.
-/
namespace DalvikLinkage.ClassPath

/-- What a session asks of the files around it. -/
structure Host where
  /-- What a path leads to. All paths to one file have the same identity. -/
  identity : Path → Path
  isFile : Path → Bool
  isDirectory : Path → Bool
  isPresent : Path → Bool
  openContainer : Path → Logged Error Container

structure Session where
  /-- The identities of the files that are loaded, in the order of loading. -/
  loaded : List Path := []
  providers : List Provider := []
  /-- Every path that was opened, in order. -/
  opened : List Path := []
  notices : List Notice := []
  deriving DecidableEq, Repr

/-- The end of some work on a session: a value or an error, and the session as it is then. -/
structure Ended (α : Type) where
  outcome : Except Error α
  session : Session

namespace Ended

variable {α β : Type}

/-- Goes on with the value and the session; an error ends the work. -/
def andThen (x : Ended α) (next : α → Session → Ended β) : Ended β :=
  match x.outcome with
  | .ok a => next a x.session
  | .error e => ⟨.error e, x.session⟩

def mapError (f : Error → Error) (x : Ended α) : Ended α :=
  ⟨x.outcome.mapError f, x.session⟩

end Ended

namespace Session

/-- A file with that identity is loaded. -/
def hasLoaded (s : Session) (identity : Path) : Bool :=
  s.loaded.any identity.same

/-- The session after a container was opened, successfully or not. -/
def afterOpening (s : Session) (path : Path) (notices : List Notice) : Session :=
  { s with opened := s.opened ++ [path], notices := s.notices ++ notices }

/-- The session with the entries of a container at the end of the class path. -/
def register (s : Session) (identity path : Path) (entries : List Entry) : Session :=
  { s with
    loaded := s.loaded ++ [identity]
    providers := s.providers ++ entries.map fun e => { container := path, entry := e } }

end Session

/-! ## Opening -/

/-- Opens a file, and keeps the notices. -/
def openAt (host : Host) (path : Path) (s : Session) : Except Error Container × Session :=
  let answer := host.openContainer path
  (answer.outcome, s.afterOpening path answer.notices)

/-- An error while opening a file to load it. A file that is no container is one that cannot be
opened. -/
def openingError (path : Path) : Error → Error
  | .unsupportedFormat p problem => .during (.opening path) (.unsupportedFormat p problem)
  | e => e

/-- The entries of a container; there has to be one, and all that are listed have to be there. -/
def entriesOf (path : Path) (c : Container) : Except Error (List Entry) :=
  if c.entryNames.isEmpty then .error (.noDexEntries path)
  else c.entries.mapError fun name => .malformed path { cause := .entryMissing name }

/-! ## Loading -/

/-- Loads the entries of a file, without what it depends on. No container is given back if the file
was loaded before. -/
def loadAlone (host : Host) (path : Path) (s : Session) : Ended (Option Container) :=
  if s.hasLoaded (host.identity path) then ⟨.ok none, s⟩
  else
    match openAt host path s with
    | (.error e, s) => ⟨.error (openingError path e), s⟩
    | (.ok c, s) =>
      match entriesOf path c with
      | .error e => ⟨.error e, s⟩
      | .ok entries => ⟨.ok (some c), s.register (host.identity path) path entries⟩

/-- Loads the files of a directory that an image depends on, without what they depend on. -/
def loadSiblings (host : Host) (directory : Path) : List String → Session → Ended Unit
  | [], s => ⟨.ok (), s⟩
  | dependency :: rest, s =>
    let name := dependencyFileName dependency
    if host.isPresent (directory.join name) then
      (loadAlone host (directory.join name) s).andThen fun _ => loadSiblings host directory rest
    else ⟨.error (.dependencyNotFound name directory.text), s⟩

/-- The error of an image whose dependencies could not be loaded. -/
def dependencyError (path : Path) (e : Error) : Error :=
  .during (if e.isNoDexEntries then .imageDependencies path else .image path) e

/-- Loads a file, and with `dependencies` also what it depends on if it is an image. Nothing is done
for a file that is loaded already. -/
def load (host : Host) (dependencies : Bool) (path : Path) (s : Session) : Ended Unit :=
  (loadAlone host path s).andThen fun
    | none, s => ⟨.ok (), s⟩
    | some c, s =>
      if dependencies && c.isBootImage then
        (loadSiblings host path.parent c.bootClassPath s).mapError (dependencyError path)
      else ⟨.ok (), s⟩

/-- Does the same work for each value in turn, until an error. -/
def forEach {α : Type} (work : α → Session → Ended Unit) : List α → Session → Ended Unit
  | [], s => ⟨.ok (), s⟩
  | a :: rest, s => (work a s).andThen fun _ => forEach work rest

end DalvikLinkage.ClassPath
