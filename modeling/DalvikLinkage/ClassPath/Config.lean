import DalvikLinkage.ClassPath.Profile
import DalvikLinkage.Json.Fields
import DalvikLinkage.Json.Reader
import DalvikLinkage.Path

/-!
# Configurations

What a resolution needs to know besides the files: the profile, where device paths are searched, and
what is on the class path. In JSON every field may be missing; it then has its default.
-/
namespace DalvikLinkage.ClassPath

structure Config where
  profile : Profile := default
  /-- Local directories in which device paths are searched. -/
  bootDirectories : List Path := []
  /-- The boot class path, if it is not to be derived. -/
  bootClassPath : Option (List String) := none
  /-- Further entries, each a local path. -/
  extraClassPath : List Path := []
  /-- The file that is analysed; it is loaded last. -/
  input : Option Path := none
  checkDependencies : Bool := true
  deriving DecidableEq, Repr

instance : Inhabited Config where
  default := {}

open Json

/-- A profile in JSON. -/
def profileOfJson? (v : Value) : Option Profile := do
  match ← v.fields? ["api_level", "art_version"] with
  | [apiLevel, artVersion] =>
    return {
      apiLevel := ← fieldOr Profile.defaultApiLevel Value.int32? apiLevel
      artVersion := ← fieldOr Profile.noArtVersion Value.int32? artVersion }
  | _ => none

def pathOfJson? (v : Value) : Option Path :=
  v.text?.map Path.mk

namespace Config

/-- A configuration in JSON. -/
def ofJson? (v : Value) : Option Config := do
  match ← v.fields? ["opcodes", "boot_class_path_dirs", "boot_class_path", "extra_class_path",
      "input", "check_oat_dependencies"] with
  | [profile, bootDirectories, bootClassPath, extraClassPath, input, checkDependencies] =>
    return {
      profile := ← fieldOr default profileOfJson? profile
      bootDirectories := ← fieldOr [] (Value.listOf? pathOfJson?) bootDirectories
      bootClassPath :=
        ← fieldOr none (Value.nullOr? (Value.listOf? Value.text?)) bootClassPath
      extraClassPath := ← fieldOr [] (Value.listOf? pathOfJson?) extraClassPath
      input := ← fieldOr none (Value.nullOr? pathOfJson?) input
      checkDependencies := ← fieldOr true Value.bool? checkDependencies }
  | _ => none

/-- The configuration that a JSON text is. -/
def parse? (text : String) : Option Config := do
  ofJson? (← Json.parse? text)

end Config
end DalvikLinkage.ClassPath
