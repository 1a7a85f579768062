/-!
# Items at locations

An arena holds the locations of one instruction stream and the items anchored to them. Every
location has an ordered list of items and every item knows the location it is at; the operations
below keep the two in step. Most locations never hold an item, so a list is only made when the first
item comes.

Handles are positions in the arena's lists: they are given out in order and stay valid.
-/
namespace DalvikLinkage.Body

/-- Names a location of an arena. -/
structure LocationId where
  number : Nat
  deriving DecidableEq, Repr

/-- Names an item of an arena. -/
structure ItemId where
  number : Nat
  deriving DecidableEq, Repr

/-- Why an edit was refused. Nothing is changed then. -/
inductive EditError
  /-- The item is somewhere already. -/
  | alreadyPlaced (item : ItemId) (current requested : LocationId)
  /-- The cursor has not just come past an item. -/
  | noCurrentItem
  | indexOutOfRange (index length : Nat)
  deriving DecidableEq, Repr

def EditError.message : EditError → String
  | .alreadyPlaced item current requested =>
    s!"item ItemId({item.number}) is already placed at LocationId({current.number}), " ++
      s!"cannot attach it to LocationId({requested.number})"
  | .noCurrentItem => "cursor has no current item to remove"
  | .indexOutOfRange index length => s!"instruction index {index} out of range (0..={length})"

/-- A location: its index in the stream and its items, none as long as no item has come. -/
structure Location where
  index : Nat
  items : Option (List ItemId)
  deriving DecidableEq, Repr

/-- An item: what it is and where it is. -/
structure Placed (α : Type) where
  value : α
  location : Option LocationId
  deriving DecidableEq, Repr

structure Arena (α : Type) where
  locations : List Location := []
  items : List (Placed α) := []
  deriving DecidableEq, Repr

namespace Arena

variable {α : Type}

/-! ## Views -/

/-- The items at a location, in order. -/
def itemsAt (a : Arena α) (l : LocationId) : List ItemId :=
  ((a.locations[l.number]?).bind (·.items)).getD []

/-- The location has a list of items, even if it is empty by now. -/
def isAllocated (a : Arena α) (l : LocationId) : Bool :=
  ((a.locations[l.number]?).bind (·.items)).isSome

/-- The index of a location in the stream. -/
def index? (a : Arena α) (l : LocationId) : Option Nat :=
  (a.locations[l.number]?).map (·.index)

/-- What an item is. -/
def value? (a : Arena α) (i : ItemId) : Option α :=
  (a.items[i.number]?).map (·.value)

/-- Where an item is. -/
def locationOf? (a : Arena α) (i : ItemId) : Option LocationId :=
  (a.items[i.number]?).bind (·.location)

/-! ## Operations -/

/-- Adds a location without items. -/
def newLocation (a : Arena α) (index : Nat) : LocationId × Arena α :=
  (⟨a.locations.length⟩, { a with locations := a.locations ++ [⟨index, none⟩] })

/-- Adds an item that is nowhere. -/
def newItem (a : Arena α) (value : α) : ItemId × Arena α :=
  (⟨a.items.length⟩, { a with items := a.items ++ [⟨value, none⟩] })

def setValue (a : Arena α) (i : ItemId) (value : α) : Arena α :=
  { a with items := a.items.modify i.number fun p => { p with value } }

def setIndex (a : Arena α) (l : LocationId) (index : Nat) : Arena α :=
  { a with locations := a.locations.modify l.number fun s => { s with index } }

/-- Says where an item is, without touching the lists. -/
def setLocation (a : Arena α) (i : ItemId) (location : Option LocationId) : Arena α :=
  { a with items := a.items.modify i.number fun p => { p with location } }

/-- Replaces the items of a location, without touching the items. -/
def setItems (a : Arena α) (l : LocationId) (items : Option (List ItemId)) : Arena α :=
  { a with locations := a.locations.modify l.number fun s => { s with items } }

/-- Puts an item that is nowhere at the end of a location's items. -/
def attach (a : Arena α) (i : ItemId) (l : LocationId) : Except EditError (Arena α) :=
  match a.locationOf? i with
  | some current => .error (.alreadyPlaced i current l)
  | none => .ok ((a.setLocation i (some l)).setItems l (some (a.itemsAt l ++ [i])))

/-- Takes an item away from where it is, and says where that was. -/
def detach (a : Arena α) (i : ItemId) : Option LocationId × Arena α :=
  match a.locationOf? i with
  | none => (none, a)
  | some l =>
    (some l, (a.setLocation i none).setItems l
      (((a.locations[l.number]?).bind (·.items)).map (·.erase i)))

/-- Moves all items of `source` to `target`, ahead of the items there. -/
def merge (a : Arena α) (source target : LocationId) : Arena α :=
  if source = target then a
  else match (a.locations[source.number]?).bind (·.items) with
    | none => a
    | some moved =>
      let a' := moved.foldl (fun a i => a.setLocation i (some target)) a
      (a'.setItems source none).setItems target (some (moved ++ a.itemsAt target))

end Arena
end DalvikLinkage.Body
