import DalvikLinkage.Body.Arena

/-!
# Cursors

A cursor walks over the items of one location. It can remove the item it has just come past, once,
and it can add items at the end of the list, which it will still come to.
-/
namespace DalvikLinkage.Body

/-- The place of a cursor: its location, the index of the next item, and the index of the item it
has just come past, if that item can still be removed. -/
structure Cursor where
  location : LocationId
  next : Nat := 0
  last : Option Nat := none
  deriving DecidableEq, Repr

namespace Cursor

variable {α : Type}

/-- The next item, if there is one, and the cursor past it. -/
def advance (c : Cursor) (a : Arena α) : Option ItemId × Cursor :=
  match (a.itemsAt c.location)[c.next]? with
  | none => (none, c)
  | some i => (some i, { c with next := c.next + 1, last := some c.next })

/-- Takes the item that the cursor has just come past away from the location. -/
def remove (c : Cursor) (a : Arena α) : Except EditError ItemId × Cursor × Arena α :=
  match c.last with
  | none => (.error .noCurrentItem, c, a)
  | some position =>
    let items := a.itemsAt c.location
    match items[position]? with
    | none => (.error .noCurrentItem, { c with last := none }, a)
    | some i =>
      (.ok i, { c with next := position, last := none },
        (a.setItems c.location (some (items.eraseIdx position))).setLocation i none)

/-- Puts an item that is nowhere at the end of the location's items. -/
def add (c : Cursor) (a : Arena α) (i : ItemId) : Except EditError (Cursor × Arena α) :=
  match a.attach i c.location with
  | .error e => .error e
  | .ok a => .ok ({ c with last := none }, a)

/-- All items that are still to come, and the cursor past them. -/
def rest (c : Cursor) (a : Arena α) : List ItemId × Cursor :=
  let items := a.itemsAt c.location
  if c.next < items.length then
    (items.drop c.next, { c with next := items.length, last := some (items.length - 1) })
  else ([], c)

end Cursor
end DalvikLinkage.Body
