import Chip8.Binary64
import Chip8.Text.LineEnd
import Chip8.Text.Utf8

/-!
Texts read block by block: bytes in UTF-8 with line ends of any form.

Characters are asked for in portions. Where a portion is not complete, blocks are decoded until it
is; a block has as many bytes as the missing characters would take at the bytes per character of the
block before, but never fewer than a least size. A carriage return at the end of a block belongs to
the next one, which may start with its line feed. So bytes that are no text spoil the portion that
is being completed, and the portions before it have been read.
-/

namespace Chip8.Text

inductive Content where
  /-- The text. -/
  | whole (text : String)
  /-- The portions before the one that some bytes spoil. -/
  | broken (start : List Char) (cause : Utf8.Error)
  deriving DecidableEq, Repr

namespace Content

/-- How many characters a portion has. -/
def portion : Nat := 4096

def leastBlock : Nat := 8192

/-- What has been read before a block: the characters, whether a carriage return is held back, the
bytes left over, and the bytes per character of the block before. -/
structure Progress where
  chars : Array Char
  heldReturn : Bool
  leftover : List UInt8
  density : Binary64
  deriving Repr

namespace Progress

def start : Progress := ⟨#[], false, [], Binary64.zero false⟩

def missing (p : Progress) : Nat := portion - p.chars.size % portion

def blockSize (p : Progress) : Nat :=
  max leastBlock (p.density.mulMagnitudes (.ofRatio false p.missing 1)).truncate

/-- The characters of the portions that are complete. -/
def complete (p : Progress) : List Char :=
  (p.chars.extract 0 (p.chars.size - p.chars.size % portion)).toList

/-- The characters of a block behind the carriage return that is held back, and whether one is held
back for the next block. A block without characters brings nothing. -/
def joinReturn (held : Bool) (cs : List Char) : List Char × Bool :=
  match cs with
  | [] => ([], held)
  | cs =>
    let cs := if held then '\r' :: cs else cs
    if cs.getLast? = some '\r' then (cs.dropLast, true) else (cs, false)

/-- The bytes per character of a block; zero for a block without characters. -/
def densityOf (bytes chars : Nat) : Binary64 :=
  if chars = 0 then .zero false else .ofRatio false bytes chars

/-- The state behind a block. -/
def add (p : Progress) (block : List UInt8) : Except Utf8.Error Progress := do
  let piece ← Utf8.decodeBlock (p.leftover ++ block)
  let (cs, held) := joinReturn p.heldReturn piece.chars
  let cs := unifyLineEnds cs
  return ⟨p.chars ++ cs, held, piece.leftover, densityOf block.length cs.length⟩

def finish (p : Progress) : Content :=
  match Utf8.Error.ofLeftover? p.leftover with
  | some cause => .broken p.complete cause
  | none => .whole (String.ofList (p.chars.toList ++ if p.heldReturn then ['\n'] else []))

theorem length_drop_lt (b : UInt8) (rest : List UInt8) (n : Nat) :
    (rest.drop n).length < (b :: rest).length := by
  simp only [List.length_drop, List.length_cons]
  omega

/-- Reads the bytes behind a state. -/
def read (p : Progress) : List UInt8 → Content
  | [] => p.finish
  | b :: rest =>
    match p.add (b :: rest.take (p.blockSize - 1)) with
    | .error cause => .broken p.complete cause
    | .ok q => q.read (rest.drop (p.blockSize - 1))
  termination_by bytes => bytes.length
  decreasing_by exact length_drop_lt b rest (p.blockSize - 1)

end Progress

def ofBytes (bytes : List UInt8) : Content := Progress.start.read bytes

end Content

end Chip8.Text
