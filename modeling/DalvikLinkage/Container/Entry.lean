import DalvikLinkage.Image

/-!
# Entries

An image under the name it has in its container, and an entry together with the container it was
loaded from.
-/
namespace DalvikLinkage

/-- One image inside a container. -/
structure Entry where
  name : String
  bytes : Bytes
  deriving DecidableEq, Repr

/-- The image; faults are met in the entry. -/
def Entry.image (e : Entry) : Logged Fault Image :=
  (Image.ofBytes e.bytes).mapError (·.within (.entry e.name))

/-- An entry on the class path and the path its container was loaded through. -/
structure Provider where
  container : Path
  entry : Entry
  deriving DecidableEq, Repr

/-- The image; faults are met in the entry of the container. -/
def Provider.image (p : Provider) : Logged Fault Image :=
  p.entry.image.mapError (·.within (.file p.container))

end DalvikLinkage
