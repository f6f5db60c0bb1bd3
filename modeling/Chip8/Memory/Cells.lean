import Chip8.Fault
import Chip8.Host

/-!
Cells: a fixed number of bytes with checked access. An address is any integer; one outside the
cells is a fault, and so is a value that is not a byte. Nothing wraps around.

Main statements: storing and clearing keep the number of cells.
-/

namespace Chip8

abbrev Cells := Array UInt8

namespace Cells

/-- The fault, if any, of asking for so many cells. -/
def countFault? [Host] (count : Nat) : Option Fault :=
  if indexBound ≤ count then some .hugeStore
  else if Host.room < count then some .outOfMemory
  else none

def zero (count : Nat) : Cells := Array.replicate count 0

/-- Whether an integer addresses one of the cells. -/
def Covers (cs : Cells) (a : Int) : Prop := 0 ≤ a ∧ a < cs.size

instance (cs : Cells) (a : Int) : Decidable (cs.Covers a) :=
  inferInstanceAs (Decidable (_ ∧ _))

/-- The byte of a cell; `store` is what the cells are called where the address is outside. -/
def read? (store : Store) (cs : Cells) (a : Int) : Except Fault UInt8 :=
  if 0 ≤ a then
    match cs[a.toNat]? with
    | some d => .ok d
    | none => .error (.outOfBounds store a cs.size)
  else .error (.outOfBounds store a cs.size)

/-- The fault, if any, of writing `d` to a cell; the address is looked at first. -/
def writeFault? (store : Store) (cs : Cells) (a d : Int) : Option Fault :=
  if ¬ cs.Covers a then some (.outOfBounds store a cs.size)
  else if ¬ (0 ≤ d ∧ d ≤ 255) then some (.notAByte d)
  else none

/-- The cells with a byte stored; used where `writeFault?` finds no fault. -/
def store (cs : Cells) (a d : Int) : Cells :=
  cs.setIfInBounds a.toNat (UInt8.ofNat d.toNat)

def clear (cs : Cells) : Cells := zero cs.size

@[simp] theorem size_zero (n : Nat) : (zero n).size = n := by simp [zero]

@[simp] theorem size_store (cs : Cells) (a d : Int) : (cs.store a d).size = cs.size := by
  simp [store]

@[simp] theorem size_clear (cs : Cells) : cs.clear.size = cs.size := by simp [clear]

end Cells

end Chip8
