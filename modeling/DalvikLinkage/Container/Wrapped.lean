import DalvikLinkage.Container.Basic

/-!
# Wrapped images

A preoptimised file starts with a small header that says where the image is and how long it is. If
what stands there is no image, the file has no entries.
-/
namespace DalvikLinkage

/-- The image in a preoptimised file, under the name of the file. -/
def wrappedImage (name : String) : Reader (Option Entry) := fun bytes _ => do
  let (start, after) ← Reader.u4 bytes 8
  let (length, after) ← Reader.u4 bytes after
  let stop := start.toNat + length.toNat
  if bytes.size < stop then
    .error { cause := .sectionOutOfRange start.toNat stop bytes.size }
  else
    let image := bytes.slice start.toNat stop
    return (if isImage image then some ⟨name, image⟩ else none, after)

end DalvikLinkage
