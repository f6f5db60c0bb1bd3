import Chip8.Host

/-!
A host of the usual size.
-/

namespace Chip8.Host

instance usual : Host where
  room := 0x1000000000
  depth := 980
  dropsAttached := true

end Chip8.Host
