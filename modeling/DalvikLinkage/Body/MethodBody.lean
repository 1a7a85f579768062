import DalvikLinkage.Body.Cursor
import DalvikLinkage.Body.Instruction
import DalvikLinkage.Body.Item

/-!
# Method bodies

A method's instructions while they are edited. Every instruction stands at a location of the body's
arena, and one more location is the end of the method, so that a range can stop there. Labels, debug
entries and the labels of try blocks are items at these locations and keep their place through
edits:

* an instruction that is appended takes the location that was the end;
* an instruction that is inserted gets a new location, and the one it is put before keeps its items;
* the items of a removed instruction move to the next location, ahead of the items there.
-/
namespace DalvikLinkage.Body

/-- A try range and its handler, given by labels. No exception type means any exception. -/
structure TryBlock where
  start : ItemId
  stop : ItemId
  handler : ItemId
  exceptionType : Option String
  deriving DecidableEq, Repr

structure MethodBody where
  registerCount : UInt16
  instructions : List Instruction
  /-- The location of each instruction, and the end. -/
  positions : List LocationId
  arena : Arena Item
  tryBlocks : List TryBlock
  deriving DecidableEq, Repr

namespace MethodBody

/-- A body without instructions. -/
def empty (registerCount : UInt16) : MethodBody :=
  let (stop, arena) := Arena.newLocation {} 0
  { registerCount, instructions := [], positions := [stop], arena, tryBlocks := [] }

def length (b : MethodBody) : Nat :=
  b.instructions.length

/-- The location of instruction `index`; the end for the index after the last one. -/
def location (b : MethodBody) (index : Nat) : Except EditError LocationId :=
  match b.positions[index]? with
  | some l => .ok l
  | none => .error (.indexOutOfRange index b.length)

/-! ## Instructions -/

/-- Gives the locations of `ls` the indices from `first` on. -/
def reindex (arena : Arena Item) (first : Nat) : List LocationId → Arena Item
  | [] => arena
  | l :: rest => reindex (arena.setIndex l first) (first + 1) rest

/-- Appends an instruction. Items at the end of the method now stand on it. -/
def push (b : MethodBody) (i : Instruction) : MethodBody :=
  let instructions := b.instructions ++ [i]
  let (stop, arena) := b.arena.newLocation instructions.length
  { b with instructions, positions := b.positions ++ [stop], arena }

/-- A body with these instructions. -/
def ofInstructions (registerCount : UInt16) (instructions : List Instruction) : MethodBody :=
  instructions.foldl push (empty registerCount)

/-- Puts an instruction before instruction `index`, or at the end. -/
def insert (b : MethodBody) (index : Nat) (i : Instruction) : Except EditError MethodBody :=
  if b.length < index then .error (.indexOutOfRange index b.length)
  else if index = b.length then .ok (b.push i)
  else
    let (l, arena) := b.arena.newLocation index
    let positions := b.positions.insertIdx index l
    .ok { b with
      instructions := b.instructions.insertIdx index i
      positions
      arena := reindex arena (index + 1) (positions.drop (index + 1)) }

/-- Puts an instruction in the place of instruction `index`, which is given back. -/
def replace (b : MethodBody) (index : Nat) (i : Instruction) :
    Except EditError (Instruction × MethodBody) :=
  match b.instructions[index]? with
  | none => .error (.indexOutOfRange index b.length)
  | some old => .ok (old, { b with instructions := b.instructions.set index i })

/-- Takes instruction `index` out. Its items move to the next location. -/
def remove (b : MethodBody) (index : Nat) : Except EditError (Instruction × MethodBody) :=
  match b.instructions[index]?, b.positions[index]?, b.positions[index + 1]? with
  | some old, some removed, some next =>
    let positions := b.positions.eraseIdx index
    .ok (old, { b with
      instructions := b.instructions.eraseIdx index
      positions
      arena := reindex (b.arena.merge removed next) index (positions.drop index) })
  | _, _, _ => .error (.indexOutOfRange index b.length)

/-! ## Items -/

/-- Anchors a new item to instruction `index`, after the items there. -/
def addItem (b : MethodBody) (index : Nat) (item : Item) :
    Except EditError (ItemId × MethodBody) :=
  match b.location index with
  | .error e => .error e
  | .ok l =>
    let (i, arena) := b.arena.newItem item
    match arena.attach i l with
    | .error e => .error e
    | .ok arena => .ok (i, { b with arena })

def addLabel (b : MethodBody) (index : Nat) (name : String) :
    Except EditError (ItemId × MethodBody) :=
  b.addItem index (.label name)

def addDebugItem (b : MethodBody) (index : Nat) (item : DebugItem) :
    Except EditError (ItemId × MethodBody) :=
  b.addItem index (.debug item)

/-- Moves an item to instruction `index`, after the items there. -/
def moveItem (b : MethodBody) (i : ItemId) (index : Nat) : Except EditError MethodBody :=
  match b.location index with
  | .error e => .error e
  | .ok l =>
    match (b.arena.detach i).2.attach i l with
    | .error e => .error e
    | .ok arena => .ok { b with arena }

/-- A cursor over the items of instruction `index`. -/
def cursor (b : MethodBody) (index : Nat) : Except EditError Cursor :=
  match b.location index with
  | .error e => .error e
  | .ok location => .ok { location }

def addTryBlock (b : MethodBody) (block : TryBlock) : MethodBody :=
  { b with tryBlocks := b.tryBlocks ++ [block] }

/-! ## Addresses -/

/-- The code address of every position, the end included. -/
def addresses (b : MethodBody) : List Nat :=
  addressesFrom 0 b.instructions

/-- The index of the instruction that an item is anchored to. -/
def indexOf? (b : MethodBody) (i : ItemId) : Option Nat := do
  let l ← b.arena.locationOf? i
  let index ← b.arena.index? l
  if b.positions[index]? = some l then some index else none

/-- The code address of an item. -/
def addressOf? (b : MethodBody) (i : ItemId) : Option Nat := do
  b.addresses[← b.indexOf? i]?

/-- The items of the body in the order of the stream, each with its code address. -/
def itemsInOrder (b : MethodBody) : List (Nat × Item) :=
  (b.positions.zip b.addresses).flatMap fun (l, address) =>
    (b.arena.itemsAt l).filterMap fun i => (b.arena.value? i).map (address, ·)

/-- The debug entries in the order of the stream, each with its code address. -/
def debugItems (b : MethodBody) : List (Nat × DebugItem) :=
  b.itemsInOrder.filterMap fun
    | (address, .debug item) => some (address, item)
    | (_, .label _) => none

/-- The labels in the order of the stream, each with its code address. -/
def labels (b : MethodBody) : List (Nat × String) :=
  b.itemsInOrder.filterMap fun
    | (address, .label name) => some (address, name)
    | (_, .debug _) => none

/-! ## Try blocks -/

/-- A try range and its handler, given by code addresses. -/
structure TryRange where
  start : Nat
  /-- How many code units the range covers. -/
  length : Nat
  handler : Nat
  exceptionType : Option String
  deriving DecidableEq, Repr

/-- The code address of a label, a fault if it stands nowhere in the body. -/
def labelAddress (b : MethodBody) (role : LabelRole) (i : ItemId) : Except Fault Nat :=
  match b.addressOf? i with
  | some address => .ok address
  | none =>
    .error { cause := .labelNotPlaced role (((b.arena.value? i).map Item.text).getD "") }

/-- The range of a try block. It covers at least one code unit. -/
def tryRange (b : MethodBody) (block : TryBlock) : Except Fault TryRange := do
  let start ← b.labelAddress .start block.start
  let stop ← b.labelAddress .stop block.stop
  let handler ← b.labelAddress .handler block.handler
  if stop ≤ start then .error { cause := .emptyTryRange start stop }
  else return { start, length := stop - start, handler, exceptionType := block.exceptionType }

/-- The ranges of all try blocks, in order; the first fault names its block. -/
def tryRanges (b : MethodBody) : Except Fault (List TryRange) :=
  b.tryBlocks.zipIdx.mapM fun (block, index) =>
    (b.tryRange block).mapError (·.within (.tryBlock index))

end MethodBody
end DalvikLinkage.Body
