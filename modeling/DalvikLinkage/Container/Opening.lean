import DalvikLinkage.ClassPath.Profile
import DalvikLinkage.Container.Multidex
import DalvikLinkage.Container.Oat
import DalvikLinkage.Container.Wrapped

/-!
# Opening containers

The first bytes of a file say what kind of container it is. Images of a version that the profile
does not support are opened all the same, with a notice.
-/
namespace DalvikLinkage

/-- The notice on an image whose version the profile does not support. -/
def versionNotices (profile : Profile) (e : Entry) : List Notice :=
  match Header.read e.bytes 0 with
  | .ok (header, _) =>
    if profile.supportsDexVersion header.version then []
    else [.versionTooNew e.name header.version profile.apiLevel]
  | .error _ => []

/-- The container that the bytes are. A file that is an image itself is an entry with the name of
the file. -/
def openContainer (path : Path) (name : String) (profile : Profile) (bytes : Bytes) :
    Logged ClassPath.Error Container :=
  if isImage bytes then
    let entry : Entry := ⟨name, bytes⟩
    ⟨versionNotices profile entry, .ok (Container.single entry)⟩
  else if bytes.hasAt 0 [0x64, 0x65, 0x79, 0x0a] then
    Logged.of (match wrappedImage name bytes 0 with
      | .ok (entry, _) => .ok (Container.ofOption entry)
      | .error fault => .error (.malformed path fault))
  else if bytes.hasAt 0 [0x50, 0x4b, 0x03, 0x04] || bytes.hasAt 0 [0x50, 0x4b, 0x05, 0x06] then
    match multidex path bytes with
    | .error e => Logged.fail e
    | .ok c =>
      let entries := c.entryNames.filterMap fun n => (c.entry? n).map fun e => { e with name := n }
      ⟨entries.flatMap (versionNotices profile), .ok c⟩
  else if bytes.hasAt 0 [0x7f, 0x45, 0x4c, 0x46] then do
    let contents ← Oat.ofElf path bytes
    return contents.container
  else
    let magic := if bytes.size < 4 then [] else (bytes.slice 0 4).toList
    Logged.fail (.unsupportedFormat path (.unknownMagic magic))

end DalvikLinkage
