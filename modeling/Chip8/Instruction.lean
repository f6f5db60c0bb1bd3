/-!
The instruction set: 34 instructions on sixteen 8-bit registers, an index register, a stack of
return addresses, two timers, a keypad and a display.
-/

namespace Chip8

/-- One of the registers V0 to VF. -/
abbrev Register := Fin 16

/-- An address that fits into an instruction word. -/
abbrev Target := Fin 4096

inductive Instruction where
  /-- Clears the display. -/
  | clear
  /-- Returns to the address on top of the stack. -/
  | ret
  /-- Jumps. -/
  | jump (target : Target)
  /-- Stacks the address of the next instruction and jumps. -/
  | call (target : Target)
  /-- Skips the next instruction if a register holds a byte. -/
  | skipIfByte (x : Register) (byte : UInt8)
  /-- Skips the next instruction unless a register holds a byte. -/
  | skipUnlessByte (x : Register) (byte : UInt8)
  /-- Skips the next instruction if two registers are equal. -/
  | skipIfEqual (x y : Register)
  /-- Loads a byte. -/
  | loadByte (x : Register) (byte : UInt8)
  /-- Adds a byte; the carry is lost. -/
  | addByte (x : Register) (byte : UInt8)
  /-- Copies a register. -/
  | copy (x y : Register)
  /-- Bitwise or. -/
  | or (x y : Register)
  /-- Bitwise and. -/
  | and (x y : Register)
  /-- Bitwise exclusive or. -/
  | xor (x y : Register)
  /-- Adds a register; VF is the carry. -/
  | add (x y : Register)
  /-- Subtracts the second register from the first; VF is 1 without a borrow. -/
  | sub (x y : Register)
  /-- Shifts right by one; VF is the bit shifted out. -/
  | shiftRight (x : Register)
  /-- Subtracts the first register from the second; VF is 1 without a borrow. -/
  | subFrom (x y : Register)
  /-- Shifts left by one; VF is the bit shifted out. -/
  | shiftLeft (x : Register)
  /-- Skips the next instruction unless two registers are equal. -/
  | skipUnlessEqual (x y : Register)
  /-- Loads the index register. -/
  | loadIndex (target : Target)
  /-- Jumps to an address plus V0. -/
  | jumpOffset (target : Target)
  /-- Loads a random byte with only the bits of a mask. -/
  | random (x : Register) (mask : UInt8)
  /-- Draws a sprite of some rows, read at the index register, with its corner at two registers. -/
  | draw (x y : Register) (rows : Fin 16)
  /-- Skips the next instruction if the key that a register names is down. -/
  | skipIfKey (x : Register)
  /-- Skips the next instruction unless the key that a register names is down. -/
  | skipUnlessKey (x : Register)
  /-- Reads the delay timer. -/
  | readDelay (x : Register)
  /-- Waits for a key and loads its number. -/
  | awaitKey (x : Register)
  /-- Sets the delay timer. -/
  | setDelay (x : Register)
  /-- Sets the sound timer. -/
  | setSound (x : Register)
  /-- Adds a register to the index register. -/
  | addIndex (x : Register)
  /-- Points the index register at the glyph of a digit. -/
  | loadGlyph (x : Register)
  /-- Stores the three decimal digits of a register at the index register. -/
  | storeDecimal (x : Register)
  /-- Stores V0 to a register at the index register. -/
  | storeRegisters (x : Register)
  /-- Loads V0 to a register from the index register. -/
  | loadRegisters (x : Register)
  deriving DecidableEq, Repr

end Chip8
