import DalvikLinkage.Text.Pieces

/-!
# Files that an image depends on

An image of the runtime lists the files it was compiled against by the paths they have on a device.
The code of an image `x.art` is in the file `x.oat`, and the files themselves are kept next to the
image, so only the last name of a listed path counts.
-/
namespace DalvikLinkage.ClassPath

/-- The file that holds the code of a boot class path entry: `.oat` instead of `.art` at the end. -/
def codeFile (entry : String) : String :=
  match Text.withoutEnd? ".art".toList entry.toList with
  | some stem => String.ofList (stem ++ ".oat".toList)
  | none => entry

/-- The last name of a path on a device. -/
def leaf (entry : String) : String :=
  String.ofList (Text.lastPiece (· == '/') entry.toList)

/-- The name under which a file that an image depends on is stored next to it. -/
def dependencyFileName (entry : String) : String :=
  codeFile (leaf entry)

end DalvikLinkage.ClassPath
