import Chip8.Text.Content
import Chip8.Yaml.Value

/-!
Documents as data: the characters that a document may hold, and the value of its root node. A text
without a document stands for null.

A document is read while its text is. So where its bytes are no text, what has been read before them
may show first that they are no document, whatever comes behind.
-/

namespace Chip8.Yaml

def isPermitted (c : Char) : Bool :=
  c == '\t' || c == '\n' || c == '\r' || (' ' ≤ c && c ≤ '~') || c == '\x85' ||
    ('\xa0' ≤ c && c ≤ '\ud7ff') || ('\ue000' ≤ c && c ≤ '\ufffd') || 0x10000 ≤ c.toNat

/-- The data that a document stands for, given as its text with line feeds as line ends. -/
def read (cs : List Char) : Except Error Datum := do
  if !cs.all isPermitted then throw .malformed
  match ← Node.ofTokens (← tokens cs) with
  | some n => n.rootDatum
  | none => return .null

/-- The error, if any, that the start of a text shows before more of it is read. -/
def refusal? (start : List Char) : Option Error :=
  if start.all isPermitted then
    match startTokens start with
    | .error e => some e
    | .ok ts =>
      match Node.ofTokens ts with
      | .error .malformed => some .malformed
      | _ => if Node.namesAgree [] ts then none else some .malformed
  else some .malformed

/-- The data that the bytes of a document stand for. Nothing of the text is looked at before two
portions of it have been read. -/
def readBytes (bytes : List UInt8) : Except Error Datum :=
  match Text.Content.ofBytes bytes with
  | .whole text => read text.toList
  | .broken start cause =>
    let refused := if 2 * Text.Content.portion ≤ start.length then refusal? start else none
    .error (refused.getD (.badValue cause.message))

end Chip8.Yaml
