import Chip8.Memory.Cells

/-!
The display: a rectangle of pixels, one cell each, row after row. A program draws on it by
inverting pixels.

A pixel is addressed by the number `y * width + x` of its cell, and only that number is checked.
Drawing wraps coordinates around both edges first, so it cannot leave the screen.
-/

namespace Chip8

/-- A screen of `width` by `height` pixels; the pixel in column `x` of row `y` is cell
`y * width + x`. -/
structure Display where
  width : Nat
  height : Nat
  cells : Cells
  width_pos : 0 < width
  height_pos : 0 < height
  size_eq : cells.size = width * height
  deriving DecidableEq

namespace Display

def defaultWidth : Nat := 64

def defaultHeight : Nat := 32

def create? [Host] (width height : Int) : Except Fault Display :=
  if h : 0 < width ∧ 0 < height then
    match Cells.countFault? (width.toNat * height.toNat) with
    | some e => .error e
    | none =>
      .ok ⟨width.toNat, height.toNat, Cells.zero (width.toNat * height.toNat), by omega, by omega,
        by simp⟩
  else .error (.badDisplaySize width height)

def size (d : Display) : Nat := d.cells.size

def read? (d : Display) (a : Int) : Except Fault UInt8 := Cells.read? .display d.cells a

def writeFault? (d : Display) (a v : Int) : Option Fault := Cells.writeFault? .display d.cells a v

def store : Display → Int → Int → Display
  | ⟨width, height, cells, hw, hh, hs⟩, a, v =>
    ⟨width, height, cells.store a v, hw, hh, by simpa using hs⟩

def clear (d : Display) : Display :=
  ⟨d.width, d.height, d.cells.clear, d.width_pos, d.height_pos, by simpa using d.size_eq⟩

/-! ### Pixels -/

/-- The number of the cell of a pixel. -/
def cellOf (d : Display) (x y : Int) : Int := y * d.width + x

def pixel? (d : Display) (x y : Int) : Except Fault UInt8 := d.read? (d.cellOf x y)

/-- The screen with the lowest bit of a cell inverted, and whether the cell held 1. -/
def flip : Display → Nat → Bool × Display
  | ⟨width, height, cells, hw, hh, hs⟩, k =>
    let old := cells.getD k 0
    (old == 1,
      ⟨width, height, cells.setIfInBounds k (old ^^^ 1), hw, hh, by simpa using hs⟩)

/-- Inverts a pixel; the answer tells whether it was lit and so went dark. -/
def xorPixel? (d : Display) (x y : Int) : Except Fault (Bool × Display) :=
  if d.cells.Covers (d.cellOf x y) then .ok (d.flip (d.cellOf x y).toNat)
  else .error (.outOfBounds .display (d.cellOf x y) d.size)

/-! ### Views -/

/-- All cells, row after row. -/
def frame (d : Display) : List UInt8 := d.cells.toList

def rows (d : Display) : List (List UInt8) :=
  (List.range d.height).map fun y => (d.frame.drop (y * d.width)).take d.width

/-! ### Drawing -/

/-- The number of the cell in which a point lies once both coordinates are wrapped around. -/
def wrappedCell (d : Display) (x y : Int) : Nat :=
  (y % d.height).toNat * d.width + (x % d.width).toNat

/-- Whether bit `7 - column` of a byte is set: the bits of a sprite row, from the left. -/
def rowBit (row : UInt8) (column : Nat) : Bool := row.toNat.testBit (7 - column)

def drawColumns (x y : Int) (row : UInt8) : Nat → Nat → Bool → Display → Bool × Display
  | 0, _, hit, d => (hit, d)
  | count + 1, column, hit, d =>
    if rowBit row column then
      match d.flip (d.wrappedCell (x + column) y) with
      | (lit, d) => drawColumns x y row count (column + 1) (hit || lit) d
    else drawColumns x y row count (column + 1) hit d

/-- Draws one row of eight pixels with its left end at a point; the answer tells whether a lit
pixel went dark. -/
def drawRow (x y : Int) (row : UInt8) (d : Display) : Bool × Display :=
  drawColumns x y row 8 0 false d

end Display

end Chip8
