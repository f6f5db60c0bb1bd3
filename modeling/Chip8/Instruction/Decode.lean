import Chip8.Instruction

/-!
Decoding: the fields of an instruction word and the instruction that a word stands for.

The highest digit of a word selects its group. Groups 0 and 8 go on by the lowest digit, groups E
and F by the low byte; the words left over stand for no instruction. Every field is a digit group
of the word in two's complement, so bits above the sixteenth do not matter.
-/

namespace Chip8

/-! ### Fields of a word -/

namespace Word

/-- The hexadecimal digit of `w` at place `k`, counted from the lowest. -/
def digit (w : Int) (k : Nat) : Fin 16 :=
  ⟨(w / Nat.pow 16 k % 16).toNat, by omega⟩

def group (w : Int) : Fin 16 := digit w 3

def x (w : Int) : Register := digit w 2

def y (w : Int) : Register := digit w 1

def low (w : Int) : Fin 16 := digit w 0

def byte (w : Int) : UInt8 := UInt8.ofNat (w % 256).toNat

def target (w : Int) : Target := ⟨(w % 4096).toNat, by omega⟩

end Word

/-! ### Decoding -/

namespace Instruction

open Word

def decodeSystem (w : Int) : Option Instruction :=
  match (low w).val with
  | 0x0 => some .clear
  | 0xE => some .ret
  | _ => none

def decodeArithmetic (w : Int) : Option Instruction :=
  match (low w).val with
  | 0x0 => some (.copy (x w) (y w))
  | 0x1 => some (.or (x w) (y w))
  | 0x2 => some (.and (x w) (y w))
  | 0x3 => some (.xor (x w) (y w))
  | 0x4 => some (.add (x w) (y w))
  | 0x5 => some (.sub (x w) (y w))
  | 0x6 => some (.shiftRight (x w))
  | 0x7 => some (.subFrom (x w) (y w))
  | 0xE => some (.shiftLeft (x w))
  | _ => none

def decodeKey (w : Int) : Option Instruction :=
  match (byte w).toNat with
  | 0x9E => some (.skipIfKey (x w))
  | 0xA1 => some (.skipUnlessKey (x w))
  | _ => none

def decodeTransfer (w : Int) : Option Instruction :=
  match (byte w).toNat with
  | 0x07 => some (.readDelay (x w))
  | 0x0A => some (.awaitKey (x w))
  | 0x15 => some (.setDelay (x w))
  | 0x18 => some (.setSound (x w))
  | 0x1E => some (.addIndex (x w))
  | 0x29 => some (.loadGlyph (x w))
  | 0x33 => some (.storeDecimal (x w))
  | 0x55 => some (.storeRegisters (x w))
  | 0x65 => some (.loadRegisters (x w))
  | _ => none

def decode? (w : Int) : Option Instruction :=
  match (group w).val with
  | 0x0 => decodeSystem w
  | 0x1 => some (.jump (target w))
  | 0x2 => some (.call (target w))
  | 0x3 => some (.skipIfByte (x w) (byte w))
  | 0x4 => some (.skipUnlessByte (x w) (byte w))
  | 0x5 => some (.skipIfEqual (x w) (y w))
  | 0x6 => some (.loadByte (x w) (byte w))
  | 0x7 => some (.addByte (x w) (byte w))
  | 0x8 => decodeArithmetic w
  | 0x9 => some (.skipUnlessEqual (x w) (y w))
  | 0xA => some (.loadIndex (target w))
  | 0xB => some (.jumpOffset (target w))
  | 0xC => some (.random (x w) (byte w))
  | 0xD => some (.draw (x w) (y w) (low w))
  | 0xE => decodeKey w
  | _ => decodeTransfer w

end Instruction

end Chip8
