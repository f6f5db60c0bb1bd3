/-!
Classes of characters given as ranges of code points.
-/

namespace Chip8.Text

structure CharRange where
  first : Nat
  last : Nat
  deriving DecidableEq, Repr

def CharRange.covers (r : CharRange) (c : Char) : Bool := r.first ≤ c.toNat && c.toNat ≤ r.last

def CharRange.anyCovers (rs : List CharRange) (c : Char) : Bool := rs.any fun r => r.covers c

end Chip8.Text
