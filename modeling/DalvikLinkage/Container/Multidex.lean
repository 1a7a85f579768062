import DalvikLinkage.Archive.Directory
import DalvikLinkage.Container.Basic

/-!
# Archives of images

The images at the top level of an archive, in the order in which they are loaded: `classes.dex`,
then `classes2.dex`, `classes3.dex` and so on by their numbers, then the others by their names. The
number in a name decides its place, so two names with one number share a place, and the later one
has it.
-/
namespace DalvikLinkage

/-- The place of an entry in the order of loading. -/
inductive EntryRank
  | classes (number : UInt32)
  | other (name : String)
  deriving DecidableEq, Repr

namespace EntryRank

/-- The place that a name gives. -/
def ofName (name : String) : EntryRank :=
  let number := do
    let rest ← Text.withoutStart? "classes".toList name.toList
    let digits ← Text.withoutEnd? ".dex".toList rest
    if digits.isEmpty then some 1
    else (Number.unsigned? 10 digits).filter (1 < ·)
  match number with
  | some n => .classes n
  | none => .other name

instance : Ord EntryRank where
  compare
    | .classes m, .classes n => compare m n
    | .classes _, .other _ => .lt
    | .other _, .classes _ => .gt
    | .other a, .other b => compare a b

end EntryRank

/-- Entries by their ranks, in ascending order. -/
abbrev RankedEntries := List (EntryRank × Entry)

/-- Puts an entry at its rank, in the place of one that is there. -/
def insertRanked (rank : EntryRank) (e : Entry) : RankedEntries → RankedEntries
  | [] => [(rank, e)]
  | (r, f) :: rest =>
    match compare rank r with
    | .lt => (rank, e) :: (r, f) :: rest
    | .eq => (rank, e) :: rest
    | .gt => (r, f) :: insertRanked rank e rest

/-- The images of named contents, by their ranks. -/
def rankEntries (files : List (String × Bytes)) : RankedEntries :=
  files.foldl (fun ranked (name, data) =>
    if isImage data then insertRanked (EntryRank.ofName name) ⟨name, data⟩ ranked else ranked) []

/-- A container of ranked entries. A name stands for the entry at its rank. -/
def Container.ofRanked (ranked : RankedEntries) : Container where
  entryNames := ranked.map (·.2.name)
  entry? name := (ranked.find? fun r => r.1 == EntryRank.ofName name).map (·.2)

/-- The name of a member if it is that of an image at the top level: a path of one name that ends in
`.dex`. -/
def topLevelName? (name : String) : Option String :=
  if name.toList.contains '\x00' then none
  else match (Path.mk name).components with
    | [.name n] => if ".dex".toList.isSuffixOf n.toList then some n else none
    | _ => none

/-- The contents of the members that can be images, in the order of the archive. An archive with a
member that cannot be read on is no container, whatever that member is. -/
def archiveFiles (path : Path) (bytes : Bytes) :
    List Archive.Member → Except ClassPath.Error (List (String × Bytes))
  | [] => .ok []
  | m :: rest =>
    match m.packed? bytes with
    | none => .error (.unsupportedFormat path .badArchive)
    | some data =>
      match if m.isDirectory then none else topLevelName? m.name with
      | none => archiveFiles path bytes rest
      | some name =>
        match m.unpack data with
        | .error problem => .error (.unreadable path problem)
        | .ok contents => (archiveFiles path bytes rest).map ((name, contents) :: ·)

/-- The images of an archive. -/
def multidex (path : Path) (bytes : Bytes) : Except ClassPath.Error Container :=
  match Archive.members? bytes with
  | none => .error (.unsupportedFormat path .badArchive)
  | some members =>
    (archiveFiles path bytes members).map fun files => Container.ofRanked (rankEntries files)

end DalvikLinkage
