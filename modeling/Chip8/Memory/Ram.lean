import Chip8.Memory.Cells

/-!
Random-access memory: a positive number of cells, all zero at first.
-/

namespace Chip8

/-- A memory of at least one cell. -/
structure Ram where
  cells : Cells
  nonempty : 0 < cells.size
  /-- Whether the size was given as a truth value. -/
  isFlag : Bool
  deriving DecidableEq

namespace Ram

def create? [Host] (size : Int) : Except Fault Ram :=
  if h : 0 < size then
    match Cells.countFault? size.toNat with
    | some e => .error e
    | none => .ok ⟨Cells.zero size.toNat, by simpa using h, false⟩
  else .error .badRamSize

/-- A memory whose size is given as a truth value, which counts as one. -/
def createFlag? (size : Bool) : Except Fault Ram :=
  if size then .ok ⟨Cells.zero 1, by simp, true⟩ else .error .badRamSize

def label (r : Ram) : Store := if r.isFlag then .flag else .ram

def size (r : Ram) : Nat := r.cells.size

def read? (r : Ram) (a : Int) : Except Fault UInt8 := Cells.read? r.label r.cells a

def writeFault? (r : Ram) (a d : Int) : Option Fault := Cells.writeFault? r.label r.cells a d

def store : Ram → Int → Int → Ram
  | ⟨cells, nonempty, isFlag⟩, a, d => ⟨cells.store a d, by simpa using nonempty, isFlag⟩

def clear (r : Ram) : Ram := ⟨r.cells.clear, by simpa using r.nonempty, r.isFlag⟩

end Ram

end Chip8
