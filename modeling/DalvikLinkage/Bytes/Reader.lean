import DalvikLinkage.Fault

/-!
# Reading structures from bytes

A reader takes the bytes and an offset and gives a value with the offset after it, or a fault.
Readers are put together as a monad, so a record is read by naming its fields in order. A failed
read has no offset: whoever reads on does so from an offset of their own.

The primitive readers take little-endian numbers of one, two and four bytes. `Reader.elsewhere`
follows an absolute offset without moving, which is how the tables of an image refer to their data.
-/
namespace DalvikLinkage

/-- Reads a value at an offset and says where it ended. -/
def Reader (α : Type) : Type :=
  Bytes → Nat → Except Fault (α × Nat)

namespace Reader

variable {α β : Type}

/-- A value that takes no bytes. -/
def value (a : α) : Reader α :=
  fun _ offset => .ok (a, offset)

/-- A reader that fails whatever it is given. -/
def fail (cause : Fault.Cause) : Reader α :=
  fun _ _ => .error { cause }

/-- Reads with `r`, then with the reader that its value chooses, from where `r` ended. -/
def andThen (r : Reader α) (next : α → Reader β) : Reader β := fun bytes offset =>
  match r bytes offset with
  | .ok (a, after) => next a bytes after
  | .error fault => .error fault

instance : Monad Reader where
  pure := value
  bind := andThen

/-- Names the structure that is being read in every fault of `r`. -/
def within (context : Fault.Context) (r : Reader α) : Reader α := fun bytes offset =>
  (r bytes offset).mapError (·.within context)

/-- Reads at `target` and stays where it is. -/
def elsewhere (target : Nat) (r : Reader α) : Reader α := fun bytes offset =>
  (r bytes target).map fun (a, _) => (a, offset)

/-- Continues at `target`. -/
def seek (target : Nat) : Reader Unit :=
  fun _ _ => .ok ((), target)

/-- Reads `count` values one after the other; each reader is told its index. -/
def forIndices (r : Nat → Reader α) (first : Nat) : (count : Nat) → Reader (List α)
  | 0 => pure []
  | count + 1 => do
    let head ← r first
    let tail ← forIndices r (first + 1) count
    return head :: tail

/-- Reads `count` values of one kind one after the other. -/
def times (count : Nat) (r : Reader α) : Reader (List α) :=
  forIndices (fun _ => r) 0 count

def u1 : Reader UInt8 := fun bytes offset =>
  match bytes[offset]? with
  | some b => .ok (b, offset + 1)
  | none => .error { cause := .endOfBytes .one offset }

def u2 : Reader UInt16 := fun bytes offset =>
  match bytes.half? offset with
  | some n => .ok (n, offset + 2)
  | none => .error { cause := .endOfBytes .two offset }

def u4 : Reader UInt32 := fun bytes offset =>
  match bytes.word? offset with
  | some n => .ok (n, offset + 4)
  | none => .error { cause := .endOfBytes .four offset }

/-- The next `length` bytes. -/
def take (length : Nat) : Reader Bytes := fun bytes offset =>
  if bytes.size - offset < length then .error { cause := .shortBuffer length offset }
  else .ok (bytes.slice offset (offset + length), offset + length)

/-- The bytes up to the next zero byte, and past it. -/
def untilNul : Reader Bytes := fun bytes offset =>
  match bytes.findNul? offset with
  | some stop => .ok (bytes.slice offset stop, stop + 1)
  | none => .error { cause := .endOfBytes .one (max offset bytes.size) }

end Reader
end DalvikLinkage
