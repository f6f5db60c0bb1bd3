import Chip8.Attempt
import Chip8.Bits
import Chip8.Instruction.Text

/-!
The registers of the processor and what the instructions do to them.

Registers hold integers. Arithmetic instructions reduce their results to 8 or 16 bits; the bitwise
ones and the shift to the right work on what is there, and loads keep what they are given.
An instruction that defines a flag writes VF last, so VF is the flag even where it is also the
operand.
-/

namespace Chip8

/-- The number of return addresses that the stack holds. -/
def stackDepth : Nat := 16

/-- The registers, the stack of return addresses and the last word fetched. -/
structure Cpu where
  pc : Int
  sp : Int
  halted : Bool
  v : Vector Int 16
  i : Int
  delay : Int
  sound : Int
  stack : Vector Int 16
  word : Int
  deriving DecidableEq, Repr

namespace Cpu

/-- The registers after a reset: all zero but the program counter. -/
def initial (pc : Int) : Cpu where
  pc := pc
  sp := 0
  halted := false
  v := Vector.replicate 16 0
  i := 0
  delay := 0
  sound := 0
  stack := Vector.replicate 16 0
  word := 0

/-! ### Register access -/

/-- The register with a number; the numbers go around behind VF. -/
def register (k : Nat) : Register := Fin.ofNat 16 k

theorem val_register {k : Nat} (h : k < 16) : (register k).val = k := Nat.mod_eq_of_lt h

def reg (c : Cpu) (x : Register) : Int := c.v.get x

def setReg (c : Cpu) (x : Register) (value : Int) : Cpu := { c with v := c.v.set x.val value x.isLt }

theorem get_eq_getElem (values : Vector Int 16) (k : Fin 16) : values.get k = values[k.val] := rfl

/-- A register that was set holds its new value, and the others hold their old ones. -/
theorem reg_setReg (c : Cpu) (x y : Register) (value : Int) :
    (c.setReg x value).reg y = if y = x then value else c.reg y := by
  simp only [reg, setReg, get_eq_getElem, Vector.getElem_set]
  simp only [Fin.ext_iff, eq_comm]

def flag (c : Cpu) : Int := c.reg 15

/-- The registers with VF replaced by the low byte of a value. -/
def setFlag (c : Cpu) (value : Int) : Cpu := c.setReg 15 (value % 256)

/-- The register that an indexed jump adds to its target. -/
def jumpOffset (c : Cpu) : Int := c.reg 0

/-- The flag that tells whether a condition holds. -/
def bit (p : Bool) : Int := if p then 1 else 0

/-- The program counter moved by a distance, in 16 bits. -/
def movePc (c : Cpu) (distance : Int) : Cpu := { c with pc := (c.pc + distance) % 65536 }

/-- The program counter moved past the next instruction if a condition holds. -/
def skipIf (c : Cpu) (p : Bool) : Cpu := if p then c.movePc 2 else c

/-- The address of the instruction being executed; the program counter is already behind it. -/
def currentAddress (c : Cpu) : Int := (c.pc - 2) % 65536

/-- The names and values of all registers in their order of display. -/
def registers (c : Cpu) : List (String × Int) :=
  (List.finRange 16).map (fun x => (Instruction.registerName x, c.reg x)) ++
    [("I", c.i), ("PC", c.pc), ("SP", c.sp), ("DT", c.delay), ("ST", c.sound)]

def register? (c : Cpu) (name : String) : Option Int := c.registers.lookup name

/-! ### Arithmetic -/

/-- Adds a byte without touching the flag. -/
def addByte (x : Register) (byte : UInt8) (c : Cpu) : Cpu :=
  c.setReg x ((c.reg x + byte.toNat) % 256)

/-- Combines two registers into the first without touching the flag. -/
def combine (f : Int → Int → Int) (x y : Register) (c : Cpu) : Cpu :=
  c.setReg x (f (c.reg x) (c.reg y))

/-- Adds; the flag is the carry. -/
def add (x y : Register) (c : Cpu) : Cpu :=
  let sum := c.reg x + c.reg y
  (c.setReg x (sum % 256)).setFlag (bit (255 < sum))

/-- Subtracts the second register from the first; the flag is 1 without a borrow. -/
def sub (x y : Register) (c : Cpu) : Cpu :=
  let a := c.reg x
  let b := c.reg y
  (c.setReg x ((a - b) % 256)).setFlag (bit (b ≤ a))

/-- Subtracts the first register from the second; the flag is 1 without a borrow. -/
def subFrom (x y : Register) (c : Cpu) : Cpu :=
  let a := c.reg x
  let b := c.reg y
  (c.setReg x ((b - a) % 256)).setFlag (bit (a ≤ b))

/-- Shifts right; the flag is the lowest bit. -/
def shiftRight (x : Register) (c : Cpu) : Cpu :=
  let a := c.reg x
  (c.setReg x (a / 2)).setFlag (a % 2)

/-- Shifts left; the flag is the bit of weight 128. -/
def shiftLeft (x : Register) (c : Cpu) : Cpu :=
  let a := c.reg x
  (c.setReg x (a * 2 % 256)).setFlag (a / 128 % 2)

/-! ### Calls -/

/-- The stack slot with a number; a negative number counts from the end. -/
def slot? (k : Int) : Option (Fin 16) :=
  if h : 0 ≤ k ∧ k < 16 then some ⟨k.toNat, by omega⟩
  else if h : -16 ≤ k ∧ k < 0 then some ⟨(k + 16).toNat, by omega⟩
  else none

/-- The fault of using a slot that does not exist; `missing` is the one for a number that is a
machine word. -/
def slotFault (missing : Fault) (k : Int) : Fault := if isIndex k then missing else .hugeSlot

/-- Stacks the program counter and jumps. -/
def call (target : Target) : Attempt Cpu Unit := fun c =>
  if stackDepth ≤ c.sp then (.error (.stackOverflow target.val c.currentAddress), c)
  else
    match slot? c.sp with
    | some k =>
      (.ok (), { c with stack := c.stack.set k.val c.pc k.isLt, sp := c.sp + 1, pc := target.val })
    | none => (.error (slotFault .noSlotToWrite c.sp), c)

def ret : Attempt Cpu Unit := fun c =>
  if c.sp = 0 then (.error (.stackUnderflow c.currentAddress), c)
  else
    let c := { c with sp := c.sp - 1 }
    match slot? c.sp with
    | some k => (.ok (), { c with pc := c.stack.get k })
    | none => (.error (slotFault .noSlotToRead c.sp), c)

/-! ### Timers -/

/-- Both timers one step down, not below zero. -/
def tick (c : Cpu) : Cpu :=
  { c with
    delay := if 0 < c.delay then c.delay - 1 else c.delay
    sound := if 0 < c.sound then c.sound - 1 else c.sound }

end Cpu

/-- A group of registers shown together, each with its width in bits. -/
structure RegisterGroup where
  name : String
  registers : List (String × Nat)
  deriving DecidableEq, Repr

/-- How the registers are grouped for display. -/
def registerLayout : List RegisterGroup :=
  [⟨"General", (List.finRange 16).map fun x => (Instruction.registerName x, 8)⟩,
   ⟨"Index/Pointers", [("I", 16), ("PC", 16), ("SP", 8)]⟩,
   ⟨"Timers", [("DT", 8), ("ST", 8)]⟩]

end Chip8
