import Chip8.Memory.Bus

/-!
Program images: bytes that are written into memory from the program start on.
-/

namespace Chip8.Rom

/-- Writes a program image at consecutive addresses and answers with its size. An image that
reaches past the end of the mapped addresses is refused before anything is written. The log is
emptied: loading is no activity of a program. -/
def load (image : List UInt8) (start : Int) : Attempt Bus Nat := do
  let mappedEnd ← Attempt.view Bus.mappedEnd
  if start + image.length > mappedEnd then
    Attempt.fail (.imageTooLarge image.length start mappedEnd)
  else do
    Bus.writeFrom start (image.map fun b => (b.toNat : Int))
    Attempt.update Bus.dropLog
    return image.length

end Chip8.Rom
