import Chip8.Memory.Bus

/-!
The built-in font: sixteen hexadecimal digits of 4 by 5 pixels. A glyph is five bytes, and the
upper four bits of each byte are one row.
-/

namespace Chip8.Font

def defaultAddress : Int := 0x050

def glyphSize : Nat := 5

/-- The glyphs of the digits 0 to F, one after the other. -/
def bytes : List UInt8 :=
  [0xF0, 0x90, 0x90, 0x90, 0xF0,
   0x20, 0x60, 0x20, 0x20, 0x70,
   0xF0, 0x10, 0xF0, 0x80, 0xF0,
   0xF0, 0x10, 0xF0, 0x10, 0xF0,
   0x90, 0x90, 0xF0, 0x10, 0x10,
   0xF0, 0x80, 0xF0, 0x10, 0xF0,
   0xF0, 0x80, 0xF0, 0x90, 0xF0,
   0xF0, 0x10, 0x20, 0x40, 0x40,
   0xF0, 0x90, 0xF0, 0x90, 0xF0,
   0xF0, 0x90, 0xF0, 0x10, 0xF0,
   0xF0, 0x90, 0xF0, 0x90, 0x90,
   0xE0, 0x90, 0xE0, 0x90, 0xE0,
   0xF0, 0x80, 0x80, 0x80, 0xF0,
   0xE0, 0x90, 0x90, 0x90, 0xE0,
   0xF0, 0x80, 0xF0, 0x80, 0xF0,
   0xF0, 0x80, 0xF0, 0x80, 0x80]

/-- Where the glyph of a digit stands in a font at `base`; only the lowest four bits count. -/
def glyphAddress (base digit : Int) : Int := base + glyphSize * (digit % 16)

/-- Writes the font into memory. The log is emptied: loading is no activity of a program. -/
def load (base : Int) : Attempt Bus Unit := do
  Bus.writeFrom base (bytes.map fun b => (b.toNat : Int))
  Attempt.update Bus.dropLog

end Chip8.Font
