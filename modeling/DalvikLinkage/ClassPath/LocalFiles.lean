import DalvikLinkage.ClassPath.Resolution
import DalvikLinkage.Container.Opening
import DalvikLinkage.FileTree
import DalvikLinkage.Linkage.Check

/-!
# Class paths of local files

Resolving and checking a class path whose containers are the files of a tree.
-/
namespace DalvikLinkage

/-- The name under which an image that is a file of its own is listed. -/
def Path.entryName (path : Path) : String :=
  path.fileName?.getD path.text

/-- The container in a file of the tree. -/
def FileTree.openContainer (tree : FileTree) (profile : Profile) (path : Path) :
    Logged ClassPath.Error Container :=
  match tree.read path with
  | .error problem => Logged.fail (.unreadable path problem)
  | .ok bytes => DalvikLinkage.openContainer path path.entryName profile bytes

/-- The image in a file of the tree. -/
def FileTree.image (tree : FileTree) (path : Path) : Logged Fault Image :=
  match tree.read path with
  | .error problem => Logged.fail { cause := .unreadableFile problem.message }
  | .ok bytes => (Image.ofBytes bytes).mapError (·.within (.file path))

namespace ClassPath

/-- The files of a tree, whose containers are opened for a profile. -/
def Host.ofTree (tree : FileTree) (profile : Profile) : Host where
  identity := tree.identity
  isFile := tree.isFile
  isDirectory := tree.isDirectory
  isPresent := tree.isPresent
  openContainer := tree.openContainer profile

/-- The paths that a resolution can ask for: the input, the extra entries, what an entry of the boot
class path or what stands in for it can be, and next to each image of these what it depends on. -/
def pathsInQuestion (host : Host) (config : Config) : List Path :=
  let boot := (bootClassPath host config {}).1.entries
  let names := boot ++ boot.filterMap standIn?
  let direct := config.input.toList ++ config.extraClassPath ++
    names.flatMap fun n => ⟨n⟩ :: candidates host config.bootDirectories n
  direct ++ direct.flatMap fun path =>
    match (host.openContainer path).outcome with
    | .ok c =>
      if c.isBootImage then c.bootClassPath.map fun d => path.parent.join (dependencyFileName d)
      else []
    | .error _ => []

/-- The report on the class path of a configuration. -/
def checkLinkage (host : Host) (config : Config) : Logged Error Report :=
  let ended := resolve host config
  (Logged.mk ended.session.notices ended.outcome).andThen fun _ => do
    let repository ← (Repository.ofProviders ended.session.providers).mapError
      (.malformed (config.input.getD ⟨""⟩))
    return repository.report

end ClassPath
end DalvikLinkage
