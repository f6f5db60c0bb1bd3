import Chip8.Numeral

/-!
Faults: the causes for which an operation of the machine or of its parts is refused, the kind each
belongs to, and the message that reports it.

A fault of one of the halting kinds, raised during a step, stops the processor until it is reset.
Where the text of a fault would show an integer that is too long to be written in decimal, the
length of that integer is what is reported, as a bad value.
-/

namespace Chip8

open Numeral

/-- The kinds of cell store that check the addresses they are given. -/
inductive Store where
  | ram
  /-- A memory of one cell whose size was given as a truth value. -/
  | flag
  | display
  deriving DecidableEq, Repr

def Store.label : Store → String
  | .ram | .flag => "RAM"
  | .display => "DisplayBuffer"

def Store.sizeText : Store → Nat → String
  | .flag, _ => "True"
  | .ram, size | .display, size => decimal size

/-- Cells and slots are numbered by signed machine words, which lie below this bound. -/
def indexBound : Nat := 0x8000000000000000

def isIndex (k : Int) : Bool := -(indexBound : Int) ≤ k ∧ k < indexBound

inductive Fault where
  /-- A step of a halted processor. -/
  | halted (pc : Int)
  /-- A call, at address `pc`, with no free stack slot. -/
  | stackOverflow (target : Nat) (pc : Int)
  /-- A return, at address `pc`, with no address on the stack. -/
  | stackUnderflow (pc : Int)
  /-- A return through a stack slot that does not exist. -/
  | noSlotToRead
  /-- A call through a stack slot that does not exist. -/
  | noSlotToWrite
  /-- A stack slot whose number is no machine word. -/
  | hugeSlot
  /-- An address that no region covers. -/
  | unmapped (address : Int)
  /-- An address outside a store of `size` cells. -/
  | outOfBounds (store : Store) (address : Int) (size : Nat)
  /-- A value that does not fit into a cell. -/
  | notAByte (value : Int)
  /-- A memory of no cells. -/
  | badRamSize
  /-- A store with so many cells that their number is no machine word. -/
  | hugeStore
  /-- A store with more cells than there is room for. -/
  | outOfMemory
  /-- A display without width or height. -/
  | badDisplaySize (width height : Int)
  /-- A region that ends before it starts, or starts below zero. -/
  | badRegion
  /-- A region for something that is no device. -/
  | notADevice
  /-- A region whose length is not the size of its store. -/
  | sizeMismatch (store : Store) (size : Nat) (length : Int)
  /-- A key number outside 0 to 15. -/
  | badKey (key : Int)
  /-- A program image that reaches past the end of the mapped addresses. -/
  | imageTooLarge (size : Nat) (start mappedEnd : Int)
  /-- A font that does not lie inside memory. -/
  | fontOutsideMemory (address size : Int)
  /-- An initial value for a register that does not exist or cannot be set. -/
  | unknownRegister (name : String)
  deriving DecidableEq, Repr

namespace Fault

inductive Kind where
  | badValue
  | badType
  | badIndex
  | overflow
  | outOfMemory
  | memoryAccess
  | stackOverflow
  | stackUnderflow
  | halt
  deriving DecidableEq, Repr

/-- Whether a fault of this kind stops the processor when a step raises it. -/
def Kind.halts : Kind → Bool
  | .memoryAccess | .stackOverflow | .stackUnderflow | .halt => true
  | .badValue | .badType | .badIndex | .overflow | .outOfMemory => false

/-- The integers that the text of a fault shows in decimal. -/
def shownIntegers : Fault → List Int
  | .outOfBounds _ address size => [address, size]
  | .notAByte value => [value]
  | .badDisplaySize width height => [width, height]
  | .sizeMismatch _ size length => [size, length]
  | .badKey key => [key]
  | .imageTooLarge size _ _ => [size]
  | .fontOutsideMemory _ size => [size]
  | _ => []

/-- Whether the text of a fault shows no integer that is too long to be written. -/
def isWritable (f : Fault) : Bool := f.shownIntegers.all Numeral.isWritable

def kind : Fault → Kind
  | .halted _ => .halt
  | .stackOverflow _ _ => .stackOverflow
  | .stackUnderflow _ => .stackUnderflow
  | .noSlotToRead | .noSlotToWrite | .hugeSlot => .badIndex
  | .hugeStore => .overflow
  | .outOfMemory => .outOfMemory
  | .unmapped _ => .memoryAccess
  | .outOfBounds store address size =>
    if isWritable (.outOfBounds store address size) then .memoryAccess else .badValue
  | .notADevice => .badType
  | .notAByte _ | .badRamSize | .badDisplaySize _ _ | .badRegion | .sizeMismatch _ _ _ | .badKey _
  | .imageTooLarge _ _ _ | .fontOutsideMemory _ _ | .unknownRegister _ => .badValue

/-- Whether a fault stops the processor when a step raises it. -/
def halts (f : Fault) : Bool := f.kind.halts

def text : Fault → String
  | .halted pc => "CPU is halted at PC " ++ taggedHex 6 pc ++ "; reset() is required."
  | .stackOverflow target pc =>
    "CALL $" ++ hex 3 target ++ " with full stack (depth 16) at " ++ taggedHex 5 pc
  | .stackUnderflow pc => "RET with empty stack at " ++ taggedHex 5 pc
  | .noSlotToRead => "list index out of range"
  | .noSlotToWrite => "list assignment index out of range"
  | .hugeSlot | .hugeStore => "cannot fit 'int' into an index-sized integer"
  | .outOfMemory => ""
  | .unmapped a => "Address " ++ taggedHex 6 a ++ " not mapped to any device."
  | .outOfBounds store a size =>
    "Address " ++ decimal a ++ " out of bounds for " ++ store.label ++ " of size " ++
      store.sizeText size ++ "."
  | .notAByte d => "Data " ++ decimal d ++ " is not an 8-bit value."
  | .badRamSize => "RAM size must be a positive integer."
  | .badDisplaySize w h => "Invalid display size " ++ decimal w ++ "x" ++ decimal h ++ "."
  | .badRegion =>
    "Invalid address range: start_address must be <= end_address and non-negative."
  | .notADevice => "Device must be an instance of a class derived from Device."
  | .sizeMismatch store size length =>
    "Registered " ++ store.label ++ " device size (" ++ store.sizeText size ++
      " bytes) does not match the specified address range size (" ++ decimal length ++ " bytes)."
  | .badKey k => "Key " ++ decimal k ++ " is not a valid key index (0-15)."
  | .imageTooLarge size start mappedEnd =>
    "ROM image of " ++ decimal size ++ " bytes at " ++ taggedHex 5 start ++
      " does not fit in memory (ends at " ++ taggedHex 5 (start + size) ++ ", memory ends at " ++
      taggedHex 5 mappedEnd ++ ")"
  | .fontOutsideMemory a size =>
    "Font at " ++ taggedHex 5 a ++ " does not fit in memory of size " ++ decimal size
  | .unknownRegister name => "Unknown register in initial_state: " ++ name

def message (f : Fault) : String := if f.isWritable then f.text else limitMessage ""

end Fault

end Chip8
