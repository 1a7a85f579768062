import DalvikLinkage.Fault

/-!
# What can go wrong while a class path is put together

An error is about one container, or it is a step of the resolution that failed, usually because of
another error. `Error.rootCause` follows those steps down to the error they started from.
-/
namespace DalvikLinkage

/-- Why a file could not be read. -/
inductive FileProblem
  | notFound
  | notADirectory
  | isADirectory
  | nameTooLong
  | tooManyLinks
  /-- The path holds a character that no file name can have. -/
  | nulInPath
  /-- Compressed data in the file ends too early. -/
  | incompleteData
  /-- Compressed data in the file is not a deflate stream. -/
  | corruptData
  /-- The data of an archive's entry is not what its checksum says. -/
  | badChecksum
  deriving DecidableEq, Repr

def FileProblem.message : FileProblem → String
  | .notFound => "No such file or directory (os error 2)"
  | .notADirectory => "Not a directory (os error 20)"
  | .isADirectory => "Is a directory (os error 21)"
  | .nameTooLong => "File name too long (os error 36)"
  | .tooManyLinks => "Too many levels of symbolic links (os error 40)"
  | .nulInPath => "file name contained an unexpected NUL byte"
  | .incompleteData => "incomplete deflate stream"
  | .corruptData => "corrupt deflate stream"
  | .badChecksum => "Invalid checksum"

/-- The problem came from the operating system and not from the contents of the file. -/
def FileProblem.isSystem : FileProblem → Bool
  | .nulInPath | .incompleteData | .corruptData | .badChecksum => false
  | _ => true

/-- Why a file is no container. -/
inductive FormatProblem
  | unknownMagic (magic : List UInt8)
  | badElf
  | noOatSymbol
  | noOatHeader
  | badArchive
  /-- A problem given as text. -/
  | described (text : String)
  deriving DecidableEq, Repr

def FormatProblem.message : FormatProblem → String
  | .unknownMagic magic =>
    "unknown magic [" ++ Text.join ", " (magic.map fun b => Number.hex 2 b.toNat) ++ "]"
  | .badElf => "bad ELF image"
  | .noOatSymbol => "ELF image has no oatdata symbol"
  | .noOatHeader => "oatdata does not start with an oat header"
  | .badArchive => "zip error"
  | .described text => text

namespace ClassPath

/-- A step of the resolution. -/
inductive Step
  | opening (path : Path)
  /-- Loading what an image depends on. -/
  | image (path : Path)
  /-- The same, when what failed had no dex entries. -/
  | imageDependencies (path : Path)
  | bootEntry (entry : String)
  /-- Neither a boot entry nor the file that stands in for it has dex entries. -/
  | neitherBootEntry (entry standIn : String)
  | extraEntryMissing (path : Path)
  | extraEntryWithoutDex (path : Path)
  | described (text : String)
  deriving DecidableEq, Repr

def Step.message : Step → String
  | .opening path => s!"cannot open {path.text}"
  | .image path => s!"error while loading oat file {path.text}"
  | .imageDependencies path => s!"error while loading dependencies for oat file {path.text}"
  | .bootEntry entry => s!"error while loading boot classpath entry {entry}"
  | .neitherBootEntry entry standIn => s!"neither {entry} nor {standIn} contain a dex file"
  | .extraEntryMissing path => s!"classpath entry {path.text} could not be found"
  | .extraEntryWithoutDex path => s!"classpath entry {path.text} does not contain a dex file"
  | .described text => text

/-- A failure while opening containers or putting the class path together. -/
inductive Error
  | unsupportedFormat (path : Path) (problem : FormatProblem)
  | noDexEntries (path : Path)
  | dependencyNotFound (name location : String)
  /-- The step failed because of another error. -/
  | during (step : Step) (cause : Error)
  /-- The step failed by itself. -/
  | failed (step : Step)
  | unreadable (path : Path) (problem : FileProblem)
  | malformed (path : Path) (fault : Fault)
  deriving DecidableEq, Repr

namespace Error

def message : Error → String
  | unsupportedFormat path problem =>
    s!"{path.text} is not a recognized dex container: {problem.message}"
  | noDexEntries path => s!"{path.text} does not contain any dex entries"
  | dependencyNotFound name location => s!"cannot find dependency {name} in {location}"
  | during step _ => step.message
  | failed step => step.message
  | unreadable path problem => s!"i/o error on {path.text}: {problem.message}"
  | malformed path fault => s!"malformed container {path.text}: {fault.message}"

/-- The error that the failed steps started from. -/
def rootCause : Error → Error
  | during _ cause => cause.rootCause
  | error => error

def isNoDexEntries : Error → Bool
  | noDexEntries _ => true
  | _ => false

/-- The messages of what lies under this error, outermost first. -/
def causes : Error → List String
  | during _ cause => cause.message :: cause.causes
  | unreadable _ problem => [problem.message]
  | malformed _ fault => [fault.message]
  | _ => []

end Error
end ClassPath
end DalvikLinkage
