import DalvikLinkage.Linkcheck

/-!
# The program

What a check can ask for is read from the disk into a tree of files, then the check runs on the
tree. Contents are read only of the files that can be on the class path.
-/
namespace DalvikLinkage.Disk

/-- The place that an absolute path names. -/
def placeOf (path : String) : Place :=
  (FileTree.partsOf ⟨path⟩).filter (· ≠ "")

/-- Where a place leads, without links; none if it leads nowhere. -/
def realPlace? (place : Place) : IO (Option Place) := do
  try return some (placeOf (toString (← IO.FS.realPath (FileTree.pathOf place).text)))
  catch _ => return none

/-- There is a directory at a place. Only directories have a place `.` in them. -/
def isDirectory (place : Place) : IO Bool := do
  return (← realPlace? (place ++ ["."])).isSome

/-- The item at a place without links, with the contents of a file; none if it may not be read. -/
def itemAt? (place : Place) : IO (Option FileTree.Item) := do
  if ← isDirectory place then return some .directory
  else
    try return some (.file (← IO.FS.readBinFile (FileTree.pathOf place).text).data)
    catch _ => return none

/-- The tree with a link to where the link really leads. -/
def addLink (tree : FileTree) (place real : Place) : FileTree :=
  if real = place then tree else tree.add place (.link (FileTree.pathOf real))

/-- The tree with what the parts of a path lead to from a place. -/
def addPath (tree : FileTree) (place : Place) : List String → IO FileTree
  | [] => return tree
  | part :: rest => do
    if part = "" ∨ part = "." then addPath tree place rest
    else if part = ".." then addPath tree place.dropLast rest
    else
      match ← realPlace? (place ++ [part]) with
      | none => return tree
      | some real =>
        let tree := addLink tree (place ++ [part]) real
        match ← itemAt? real with
        | none => return tree
        | some item => addPath (tree.add real item) real rest

/-- The tree with everything below a directory that may be listed, without the contents of files. A
link that leads nowhere leads to a name that no file has. -/
partial def addBelow (tree : FileTree) (directory : Place) : IO FileTree := do
  let entries ←
    try (← IO.FS.realPath (FileTree.pathOf directory).text).readDir
    catch _ => pure #[]
  entries.foldlM (fun tree entry => do
    let place := directory ++ [entry.fileName]
    match ← realPlace? place with
    | none => return tree.add place (.link ⟨"\x00"⟩)
    | some real =>
      if real ≠ place then
        let item := if ← isDirectory real then FileTree.Item.directory else .file #[]
        return (addLink tree place real).add real item
      else if ← isDirectory place then addBelow (tree.add place .directory) place
      else return tree.add place (.file #[])) tree

/-- The tree that a check needs. It takes three rounds: the input has to be there to tell the boot
class path, and the images on the boot class path have to be there to tell what they depend on. -/
def treeFor (config : ClassPath.Config) : IO FileTree := do
  let here := placeOf (toString (← IO.currentDir))
  let start (path : Path) := FileTree.startOf path here
  let tree := ({ workingDirectory := here } : FileTree).add here .directory
  let tree ← config.bootDirectories.foldlM (fun tree root => do
    let tree ← addPath tree (start root) (FileTree.partsOf root)
    match tree.walk root with
    | .ok place => if tree.at? place = some .directory then addBelow tree place else return tree
    | .error _ => return tree) tree
  [1, 2, 3].foldlM (fun tree _ =>
    let host := ClassPath.Host.ofTree tree config.profile
    (ClassPath.pathsInQuestion host config).foldlM (fun tree path =>
      addPath tree (start path) (FileTree.partsOf path)) tree) tree

/-- The tree that a command needs. -/
def treeForCommand : Linkcheck.Command → IO FileTree
  | .usage => return {}
  | .check input deviceRoot apiLevel =>
    match Linkcheck.configOf input deviceRoot apiLevel with
    | .error _ => return {}
    | .ok config => treeFor config

end DalvikLinkage.Disk

def main (arguments : List String) : IO UInt32 := do
  let command := DalvikLinkage.Linkcheck.Command.ofArguments arguments
  let output := DalvikLinkage.Linkcheck.run (← DalvikLinkage.Disk.treeForCommand command) command
  IO.print output.text
  return output.exitCode.toUInt32
