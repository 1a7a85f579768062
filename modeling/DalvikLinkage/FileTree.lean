import DalvikLinkage.Bytes
import DalvikLinkage.ClassPath.Error

/-!
# File trees

Files, directories and symbolic links by their places. A path is walked name by name from the root
or the working directory; links on the way are followed, and every name but the last one has to lead
to a directory.
-/
namespace DalvikLinkage

/-- A place in a tree: the names that lead to it from the root. -/
abbrev Place := List String

/-- What is at a place. -/
inductive FileTree.Item
  | file (bytes : Bytes)
  | directory
  | link (target : Path)
  deriving DecidableEq, Repr

structure FileTree where
  items : List (Place × FileTree.Item) := []
  /-- Where relative paths start. -/
  workingDirectory : Place := []
  deriving Repr

namespace FileTree

/-- The item at a place. The root is a directory. -/
def at? (tree : FileTree) (place : Place) : Option Item :=
  if place = [] then some .directory else tree.items.lookup place

/-- The tree with an item at a place where nothing or something else was. -/
def put (tree : FileTree) (place : Place) (item : Item) : FileTree :=
  { tree with items := tree.items.filter (·.1 ≠ place) ++ [(place, item)] }

/-- The tree with directories at all places on the way to `place` where nothing was. -/
def makeParents (tree : FileTree) (place : Place) : FileTree :=
  (List.range place.length).foldl (fun t n =>
    let parent := place.take n
    if (t.at? parent).isSome then t else t.put parent .directory) tree

/-- The tree with an item and the directories that it is in. -/
def add (tree : FileTree) (place : Place) (item : Item) : FileTree :=
  (tree.makeParents place).put place item

/-! ## Walking -/

/-- So many links are followed before a path is given up. -/
def maxLinks : Nat := 40

/-- The longest name, in bytes. -/
def maxNameLength : Nat := 255

/-- The longest path, in bytes. -/
def maxPathLength : Nat := 4095

/-- The path is too long to be walked. -/
def isTooLong (path : Path) : Bool :=
  maxPathLength < path.text.utf8ByteSize

/-- The parts of a path between separators. -/
def partsOf (path : Path) : List String :=
  (Text.pieces Path.isSeparator path.text.toList).map String.ofList

/-- The place from which a path is walked. -/
def startOf (path : Path) (here : Place) : Place :=
  if path.isAbsolute then [] else here

/-- Walks the parts from a place, following at most `links` links. An empty part, as at the end of a
path, stands for the place itself, which has to be a directory. -/
def walkFrom (tree : FileTree) (links : Nat) (place : Place) (parts : List String) :
    Except FileProblem Place :=
  match parts with
  | [] => .ok place
  | part :: rest =>
    if tree.at? place ≠ some .directory then .error .notADirectory
    else if part = "" ∨ part = "." then walkFrom tree links place rest
    else if part = ".." then walkFrom tree links place.dropLast rest
    else if maxNameLength < part.utf8ByteSize then .error .nameTooLong
    else match tree.at? (place ++ [part]) with
      | none => .error .notFound
      | some (.link target) =>
        match links with
        | 0 => .error .tooManyLinks
        | links + 1 => walkFrom tree links (startOf target place) (partsOf target ++ rest)
      | some _ => walkFrom tree links (place ++ [part]) rest
termination_by (links, parts.length)

/-- The place that a path leads to. -/
def walk (tree : FileTree) (path : Path) : Except FileProblem Place :=
  if path.text.toList.contains '\x00' then .error .nulInPath
  else if path.text = "" then .error .notFound
  else if isTooLong path then .error .nameTooLong
  else walkFrom tree maxLinks (startOf path tree.workingDirectory) (partsOf path)

/-! ## Questions -/

/-- What a path leads to. -/
def find (tree : FileTree) (path : Path) : Except FileProblem Item := do
  let place ← tree.walk path
  match tree.at? place with
  | some item => return item
  | none => throw .notFound

/-- The contents of a file. -/
def read (tree : FileTree) (path : Path) : Except FileProblem Bytes := do
  match ← tree.find path with
  | .file bytes => return bytes
  | .directory => throw .isADirectory
  | .link _ => throw .tooManyLinks

def isFile (tree : FileTree) (path : Path) : Bool :=
  match tree.find path with
  | .ok (.file _) => true
  | _ => false

def isDirectory (tree : FileTree) (path : Path) : Bool :=
  match tree.find path with
  | .ok .directory => true
  | _ => false

/-- The path leads somewhere. -/
def isPresent (tree : FileTree) (path : Path) : Bool :=
  (tree.find path).isOk

/-- The path of a place from the root. -/
def pathOf (place : Place) : Path :=
  ⟨"/" ++ Text.join "/" place⟩

/-- The path from the root to what a path leads to, without links; a path that leads nowhere is its
own identity. -/
def identity (tree : FileTree) (path : Path) : Path :=
  match tree.walk path with
  | .ok place => pathOf place
  | .error _ => path

/-! ## Containers -/

/-- The extensions of files that can be containers. -/
def containerExtensions : List String :=
  ["apk", "jar", "dex", "odex", "oat", "zip"]

/-- The path ends in an extension of a container, in capital or small letters. -/
def looksLikeContainer (path : Path) : Bool :=
  match path.extension? with
  | some extension => containerExtensions.contains extension.toLower
  | none => false

/-- The path from `path` to a place below the one that `path` leads to. -/
def pathBelow (path : Path) (place below : Place) : Path :=
  (below.drop place.length).foldl Path.join path

/-- Everything below a place that is no directory, as paths from `path`, which leads to the place.
-/
def filesBelow (tree : FileTree) (path : Path) (place : Place) : List Path :=
  tree.items.filterMap fun (p, item) =>
    if place.isPrefixOf p && item != .directory then some (pathBelow path place p) else none

/-- A directory below a place that cannot be listed, because its path is too long, though that of
the directory around it is not. -/
def unlisted? (tree : FileTree) (path : Path) (place : Place) : Option Path :=
  tree.items.findSome? fun (p, item) =>
    if place.isPrefixOf p && item == .directory && isTooLong (pathBelow path place p) &&
        !isTooLong (pathBelow path place p.dropLast) then
      some (pathBelow path place p)
    else none

/-- The files and links below a directory that look like containers, in the order of paths. Links to
directories are not followed. -/
def findContainers (tree : FileTree) (directory : Path) : Except ClassPath.Error (List Path) :=
  match tree.walk directory with
  | .error problem => .error (.unreadable directory problem)
  | .ok place =>
    if tree.at? place ≠ some .directory then .error (.unreadable directory .notADirectory)
    else match tree.unlisted? directory place with
      | some path => .error (.unreadable path .nameTooLong)
      | none =>
        .ok (((tree.filesBelow directory place).filter looksLikeContainer).mergeSort Path.le)

end FileTree
end DalvikLinkage
