import DalvikLinkage.ClassPath.LocalFiles

/-!
# The linkage check as a command

The command takes a file, a directory with the files of a device, and an API level; all but the
first may be left out. It prints the report and tells by its exit code whether all references
resolve.
-/
namespace DalvikLinkage.Linkcheck

/-- What the command was called for. -/
inductive Command
  | usage
  | check (input : Path) (deviceRoot : Option Path) (apiLevel : Option String)
  deriving DecidableEq, Repr

/-- The command of a list of arguments. More than three are not looked at. -/
def Command.ofArguments : List String → Command
  | [] => .usage
  | [input] => .check ⟨input⟩ none none
  | [input, root] => .check ⟨input⟩ (some ⟨root⟩) none
  | input :: root :: apiLevel :: _ => .check ⟨input⟩ (some ⟨root⟩) (some apiLevel)

/-- Why the check was given up. -/
inductive Failure
  | badApiLevel (error : Number.SignedError)
  | classPath (error : ClassPath.Error)
  deriving DecidableEq, Repr

namespace Failure

def message : Failure → String
  | badApiLevel error => error.message
  | classPath error => error.message

/-- The messages of what lies under the failure, outermost first. -/
def causes : Failure → List String
  | badApiLevel _ => []
  | classPath error => error.causes

end Failure

/-- What the command prints and how it exits. -/
structure Output where
  text : String
  exitCode : UInt8
  deriving DecidableEq, Repr

/-- The text with a line at its end. -/
def withLine (text line : String) : String :=
  text ++ line ++ "\n"

/-- The configuration of a check. -/
def configOf (input : Path) (deviceRoot : Option Path) (apiLevel : Option String) :
    Except Failure ClassPath.Config := do
  let profile ← (match apiLevel with
    | none => .ok default
    | some text => ((Number.signed text).map Profile.ofApi).mapError .badApiLevel)
  return { profile, bootDirectories := deviceRoot.toList, input := some input }

/-- The line on the containers of the device. -/
def containersLine (count : Nat) (root : Path) : String :=
  s!"{count} containers under {root.text}"

/-- The output after the check was given up. -/
def abort (printed : String) (failure : Failure) : Output where
  text := failure.causes.foldl (fun text cause => withLine text ("  caused by: " ++ cause))
    (withLine printed ("Aborted due to error: " ++ failure.message))
  exitCode := 2

/-- The output of a check that came to a report. -/
def conclude (printed : String) (report : Report) : Output :=
  if report.isClean then
    { text := withLine (printed ++ report.text) "All references resolve.", exitCode := 0 }
  else { text := printed ++ report.text, exitCode := 1 }

/-- Checks the class path, after `printed` was printed. -/
def check (tree : FileTree) (config : ClassPath.Config) (printed : String) : Output :=
  match (ClassPath.checkLinkage (.ofTree tree config.profile) config).outcome with
  | .error e => abort printed (.classPath e)
  | .ok report => conclude printed report

/-- Runs the command on the files of a tree. -/
def run (tree : FileTree) : Command → Output
  | .usage =>
    { text := withLine "" "usage: linkcheck <apk|dex|oat> [device-root] [api-level]"
      exitCode := 0 }
  | .check input deviceRoot apiLevel =>
    match configOf input deviceRoot apiLevel with
    | .error failure => abort "" failure
    | .ok config =>
      match deviceRoot with
      | none => check tree config ""
      | some root =>
        match tree.findContainers root with
        | .error e => abort "" (.classPath e)
        | .ok found => check tree config (withLine "" (containersLine found.length root))

end DalvikLinkage.Linkcheck
