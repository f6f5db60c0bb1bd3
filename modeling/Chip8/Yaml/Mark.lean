import Chip8.Yaml.Error

/-!
Characters of a document with the places where they stand, and the character classes that decide
where scalars and lines end.

A placed text ends in a NUL character, which cannot occur in a document, so that there is always a
place to look at.
-/

namespace Chip8.Yaml

/-- A character with its line, its column and its index in the text, counted from zero. -/
structure Mark where
  char : Char
  line : Nat
  column : Nat
  index : Nat
  deriving DecidableEq, Repr

/-- The character that ends a placed text. -/
def endChar : Char := '\x00'

/-- The byte order mark, which takes no column. -/
def orderMark : Char := '\ufeff'

def isBreak (c : Char) : Bool := c == '\n' || c == '\x85' || c == '\u2028' || c == '\u2029'

/-- Whether a character is a blank, a tab, the end of a line or the end of the text. -/
def isWhite (c : Char) : Bool := c == ' ' || c == '\t' || isBreak c || c == endChar

/-- Whether a character has a meaning inside brackets. -/
def isFlowMark (c : Char) : Bool :=
  c == ',' || c == '[' || c == ']' || c == '\x7b' || c == '\x7d'

/-- The characters of a text from a place on, with their places. -/
def marksFrom (line column index : Nat) : List Char → List Mark
  | [] => [⟨endChar, line, column, index⟩]
  | c :: cs =>
    ⟨c, line, column, index⟩ ::
      if isBreak c then marksFrom (line + 1) 0 (index + 1) cs
      else if c == orderMark then marksFrom line column (index + 1) cs
      else marksFrom line (column + 1) (index + 1) cs

def marks (cs : List Char) : List Mark := marksFrom 0 0 0 cs

def headChar : List Mark → Char
  | [] => endChar
  | m :: _ => m.char

def headColumn : List Mark → Nat
  | [] => 0
  | m :: _ => m.column

def headLine : List Mark → Nat
  | [] => 0
  | m :: _ => m.line

/-- Whether a text starts with a character three times and then white space: the form of the lines
that separate documents. -/
def isSeparator (c : Char) : List Mark → Bool
  | m₁ :: m₂ :: m₃ :: rest =>
    m₁.char == c && m₂.char == c && m₃.char == c && isWhite (headChar rest)
  | _ => false

/-- Whether a text starts with the line that starts or ends a document. -/
def atSeparator (ms : List Mark) : Bool := isSeparator '-' ms || isSeparator '.' ms

end Chip8.Yaml
