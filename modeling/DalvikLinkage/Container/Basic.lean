import DalvikLinkage.Container.Entry

/-!
# Containers

A container is anything that holds images under names: it lists the names and hands out the entries.
An image of the runtime also names the files it was compiled against.
-/
namespace DalvikLinkage

structure Container where
  entryNames : List String
  entry? : String → Option Entry
  isBootImage : Bool := false
  bootClassPath : List String := []

namespace Container

/-- A container of at most one entry. -/
def ofOption (e : Option Entry) : Container where
  entryNames := e.toList.map (·.name)
  entry? name := e.filter (·.name == name)

/-- A container of one entry. -/
def single (e : Entry) : Container :=
  ofOption (some e)

/-- The listed entries, in order; an error names the first one that is not handed out. -/
def entries (c : Container) : Except String (List Entry) :=
  c.entryNames.mapM fun name =>
    match c.entry? name with
    | some e => .ok e
    | none => .error name

end Container
end DalvikLinkage
