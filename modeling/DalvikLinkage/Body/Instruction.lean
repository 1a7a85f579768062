import DalvikLinkage.Fault

/-!
# Instructions

An instruction is a nonempty run of code units; the low byte of the first one is its opcode.
-/
namespace DalvikLinkage.Body

structure Instruction where
  units : List UInt16
  units_ne_nil : units ≠ []
  deriving DecidableEq, Repr

namespace Instruction

/-- The instruction with these code units; there has to be one. -/
def ofUnits (units : List UInt16) : Except Fault Instruction :=
  if h : units = [] then .error { cause := .emptyInstruction } else .ok ⟨units, h⟩

/-- The instruction that does nothing. -/
def nop : Instruction :=
  ⟨[0], by simp⟩

def opcode (i : Instruction) : UInt8 :=
  (i.units.head i.units_ne_nil).toUInt8

/-- How many code units the instruction takes. -/
def size (i : Instruction) : Nat :=
  i.units.length

theorem size_pos (i : Instruction) : 0 < i.size :=
  List.length_pos_iff.2 i.units_ne_nil

end Instruction

/-- The code address of each of the instructions and of the end after them. -/
def addressesFrom (start : Nat) : List Instruction → List Nat
  | [] => [start]
  | i :: rest => start :: addressesFrom (start + i.size) rest

end DalvikLinkage.Body
