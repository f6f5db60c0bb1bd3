import Chip8.Memory.Bus
import Chip8.Instruction.Text

/-!
Listings: memory shown as assembly text, two bytes a line. Reading for a listing leaves no trace in
the log. A range of odd length ends in a line for a single data byte.
-/

namespace Chip8.Listing

open Numeral

structure Line where
  address : Int
  bytes : String
  text : String
  deriving DecidableEq, Repr

def Line.ofWord (address word : Int) : Line :=
  ⟨address, (Operation.ofWord word).hexWord, (Operation.ofWord word).text⟩

def Line.ofByte (address : Int) (byte : UInt8) : Line :=
  ⟨address, hex 2 byte.toNat, "DB $" ++ hex 2 byte.toNat⟩

/-- The lines of `count` bytes from an address on. -/
def linesFrom (b : Bus) : Nat → Int → Except Fault (List Line)
  | 0, _ => .ok []
  | 1, a => do
    let byte ← b.peek? a
    return [Line.ofByte a byte]
  | count + 2, a => do
    let high ← b.peek? a
    let low ← b.peek? (a + 1)
    let rest ← linesFrom b count (a + 2)
    return Line.ofWord a (high.toNat * 256 + low.toNat) :: rest

/-- The lines of `length` bytes from `start` on, or up to the end of the mapped addresses. -/
def lines? (b : Bus) (start length : Int) : Except Fault (List Line) :=
  linesFrom b (min (start + length) b.mappedEnd - start).toNat start

end Chip8.Listing
