import DalvikLinkage.ClassPath.Config
import DalvikLinkage.ClassPath.Session
import DalvikLinkage.ClassPath.StockBoot

/-!
# Resolution

The whole class path of a configuration: the boot class path, the extra entries, then the input. An
entry of the boot class path is a local file, or a device path that is searched for in the local
directories; a `.jar` without images may have its images in an `.odex` file.
-/
namespace DalvikLinkage.ClassPath

/-! ## The boot class path -/

/-- The entries of a boot class path. -/
structure BootClassPath where
  entries : List String
  /-- The entries are what the input is compiled against. -/
  fromImage : Bool := false
  deriving DecidableEq, Repr

/-- The boot class path that a container gives for itself, or else the stock one. -/
def bootClassPathOf (profile : Profile) (c : Container) : BootClassPath :=
  if !c.isBootImage then { entries := stockBootClassPath profile.apiLevel }
  else if c.bootClassPath.isEmpty then { entries := ["boot.oat"], fromImage := true }
  else { entries := c.bootClassPath.map codeFile, fromImage := true }

/-- The boot class path that the input asks for. An input that cannot be opened gets a notice and
the stock one. -/
def inputBootClassPath (host : Host) (profile : Profile) (input : Path) (s : Session) :
    BootClassPath × Session :=
  match openAt host input s with
  | (.ok c, s) => (bootClassPathOf profile c, s)
  | (.error e, s) =>
    ({ entries := stockBootClassPath profile.apiLevel },
      { s with notices := s.notices ++ [.inputNotInspected input e] })

/-- The boot class path of a configuration: the one it gives, or the one its input asks for, or the
stock one. -/
def bootClassPath (host : Host) (config : Config) (s : Session) : BootClassPath × Session :=
  match config.bootClassPath, config.input with
  | some entries, _ => ({ entries }, s)
  | none, some input => inputBootClassPath host config.profile input s
  | none, none => ({ entries := stockBootClassPath config.profile.apiLevel }, s)

/-! ## Searching -/

/-- The names of a device path. -/
def deviceNames (entry : String) : List String :=
  ((Text.pieces (fun c => c == '/' || c == '\\') entry.toList).filter (· ≠ [])).map String.ofList

/-- The paths under a directory at which a device path with these names can be: that of all names,
then those of fewer and fewer of the last names. -/
def candidatesIn (directory : Path) : List String → List Path
  | [] => []
  | name :: rest => (name :: rest).foldl Path.join directory :: candidatesIn directory rest

/-- Where a device path can be, in the order of the search. -/
def candidates (host : Host) (directories : List Path) (entry : String) : List Path :=
  (directories.filter host.isDirectory).flatMap fun d => candidatesIn d (deviceNames entry)

/-- The local file of a boot class path entry: the entry itself if it is one, or the first candidate
that is. -/
def locate? (host : Host) (directories : List Path) (entry : String) : Option Path :=
  (⟨entry⟩ :: candidates host directories entry).find? host.isFile

/-- Loads an entry of the boot class path from where it is found. -/
def loadLocated (host : Host) (directories : List Path) (entry : String) (s : Session) :
    Ended Unit :=
  match locate? host directories entry with
  | some path => load host true path s
  | none =>
    ⟨.error (.dependencyNotFound entry (Text.join ":" (directories.map (·.text)))), s⟩

/-! ## Loading -/

/-- The file that stands in for a `.jar` without images. -/
def standIn? (entry : String) : Option String :=
  (Text.withoutEnd? ".jar".toList entry.toList).map fun stem =>
    String.ofList (stem ++ ".odex".toList)

/-- The error of a stand-in that could not be loaded either. -/
def standInError (entry standIn : String) (e : Error) : Error :=
  .during (if e.isNoDexEntries then .neitherBootEntry entry standIn else .bootEntry standIn) e

/-- Loads an entry of the boot class path, or what stands in for it if it has no images. -/
def loadBootEntry (host : Host) (directories : List Path) (entry : String) (s : Session) :
    Ended Unit :=
  match loadLocated host directories entry s with
  | ⟨.ok (), s⟩ => ⟨.ok (), s⟩
  | ⟨.error e, s⟩ =>
    match if e.isNoDexEntries then standIn? entry else none with
    | none => ⟨.error (.during (.bootEntry entry) e), s⟩
    | some standIn =>
      (loadLocated host directories standIn s).mapError (standInError entry standIn)

/-- The error of an extra entry that could not be loaded. -/
def extraEntryError (path : Path) (e : Error) : Error :=
  if e.isNoDexEntries then .during (.extraEntryWithoutDex path) e else e

/-- Loads an extra entry, which has to be a file. -/
def loadExtraEntry (host : Host) (path : Path) (s : Session) : Ended Unit :=
  if host.isFile path then (load host true path s).mapError (extraEntryError path)
  else ⟨.error (.failed (.extraEntryMissing path)), s⟩

/-- Loads the input. Its dependencies are on the boot class path already if that is what it is
compiled against. -/
def loadInput (host : Host) (config : Config) (boot : BootClassPath) (s : Session) : Ended Unit :=
  match config.input with
  | none => ⟨.ok (), s⟩
  | some input => load host (config.checkDependencies && !boot.fromImage) input s

/-- Loads the class path of a configuration. -/
def resolve (host : Host) (config : Config) : Ended Unit :=
  let (boot, s) := bootClassPath host config {}
  ((forEach (loadBootEntry host config.bootDirectories) boot.entries s).andThen fun _ =>
    forEach (loadExtraEntry host) config.extraClassPath).andThen fun _ =>
      loadInput host config boot

end DalvikLinkage.ClassPath
