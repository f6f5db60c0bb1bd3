import Chip8.Text.CharRange

/-!
Blanks: the characters that count as white space, and texts without the blanks at their ends.
-/

namespace Chip8.Text

/-- The blank characters: the white space, separators and line ends of Unicode. -/
def blankRanges : List CharRange :=
  [⟨0x9, 0xD⟩, ⟨0x1C, 0x20⟩, ⟨0x85, 0x85⟩, ⟨0xA0, 0xA0⟩, ⟨0x1680, 0x1680⟩, ⟨0x2000, 0x200A⟩,
   ⟨0x2028, 0x2029⟩, ⟨0x202F, 0x202F⟩, ⟨0x205F, 0x205F⟩, ⟨0x3000, 0x3000⟩]

def isBlank (c : Char) : Bool := CharRange.anyCovers blankRanges c

/-- The four information separators, which are blank although they are control characters. -/
def isSeparator (c : Char) : Bool := CharRange.covers ⟨0x1C, 0x1F⟩ c

/-- A text without the characters of a class at both ends. -/
def trim (p : Char → Bool) (cs : List Char) : List Char :=
  ((cs.dropWhile p).reverse.dropWhile p).reverse

def strip (cs : List Char) : List Char := trim isBlank cs

end Chip8.Text
