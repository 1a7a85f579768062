import DalvikLinkage.Text.Pieces

/-!
# Paths

A path is kept as it was written; nothing is normalised in what is shown. Its components are what it
means: repeated separators and inner `.` parts do not count, a leading `.` and every `..` do. Two
paths are the same path if their components are equal.
-/
namespace DalvikLinkage

/-- A path as it was written. -/
structure Path where
  text : String
  deriving DecidableEq, Repr, Inhabited

/-- One part of a path's meaning. -/
inductive Path.Component
  | root
  | current
  | parent
  | name (text : String)
  deriving DecidableEq, Repr

namespace Path

def isSeparator (c : Char) : Bool := c == '/'

/-- The path starts at the root. -/
def isAbsolute (p : Path) : Bool :=
  p.text.toList.head? == some '/'

/-- The component a part of a path's body stands for; empty parts and `.` stand for none. -/
def Component.ofPart? (part : List Char) : Option Component :=
  if part = [] ∨ part = ['.'] then none
  else if part = ['.', '.'] then some .parent
  else some (.name (String.ofList part))

/-- The start of a path that is not made of parts: the root, a leading `.`, or nothing. -/
def start (p : Path) : List Char :=
  match p.text.toList with
  | '/' :: _ => ['/']
  | ['.'] => ['.']
  | '.' :: '/' :: _ => ['.']
  | _ => []

/-- The parts of the path after its start. -/
def parts (p : Path) : List (List Char) :=
  Text.pieces isSeparator (p.text.toList.drop p.start.length)

/-- What the path means. -/
def components (p : Path) : List Component :=
  let body := p.parts.filterMap Component.ofPart?
  match p.start with
  | ['/'] => .root :: body
  | ['.'] => .current :: body
  | _ => body

/-- The two paths mean the same, however they are written. -/
def same (p q : Path) : Bool :=
  p.components == q.components

/-- The last component if it is a name: the file the path is about. -/
def fileName? (p : Path) : Option String :=
  match p.components.getLast? with
  | some (.name n) => some n
  | _ => none

/-- The parts up to and including the last one that stands for a component. -/
def trimmed (parts : List (List Char)) : List (List Char) :=
  (parts.reverse.dropWhile fun part => (Component.ofPart? part).isNone).reverse

/-- The path without its last component, as far as it was written; empty if nothing is left. -/
def parent (p : Path) : Path :=
  match (trimmed p.parts).reverse with
  | [] => ⟨""⟩
  | _ :: before => ⟨String.ofList (p.start ++ Text.ofPieces ['/'] (trimmed before.reverse))⟩

/-- The right path seen from the left one: an absolute right path stands alone, otherwise exactly
one separator is put between them, and none after an empty left path. -/
def join (p : Path) (right : String) : Path :=
  if right.toList.head? = some '/' then ⟨right⟩
  else if p.text.toList = [] ∨ p.text.toList.getLast? = some '/' then ⟨p.text ++ right⟩
  else ⟨p.text ++ "/" ++ right⟩

/-- What follows the last dot of the file name, unless that dot is its first character. -/
def extension? (p : Path) : Option String := do
  let file ← p.fileName?
  match (Text.pieces (· == '.') file.toList).reverse with
  | [] => none
  | [_] => none
  | [_, []] => none
  | ext :: _ => some (String.ofList ext)

/-- The order of components: root, current, parent, then names by their characters. -/
def Component.rank : Component → Nat × String
  | .root => (0, "")
  | .current => (1, "")
  | .parent => (2, "")
  | .name n => (3, n)

/-- The component stands before the other one or is equal to it. -/
def Component.le (a b : Component) : Bool :=
  a.rank.1 < b.rank.1 || (a.rank.1 == b.rank.1 && (compare a.rank.2 b.rank.2).isLE)

/-- The lexicographic order of component lists. -/
def lePaths : List Component → List Component → Bool
  | [], _ => true
  | _ :: _, [] => false
  | a :: as, b :: bs => if a = b then lePaths as bs else a.le b

/-- The order of paths: component by component. -/
def le (p q : Path) : Bool :=
  lePaths p.components q.components

end Path
end DalvikLinkage
