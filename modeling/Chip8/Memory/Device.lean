import Chip8.Memory.Ram
import Chip8.Display

/-!
Devices: what an address region of the bus leads to. Addresses here are offsets inside the device.
-/

namespace Chip8

/-- A device that answers reads and takes writes at offsets. -/
inductive Device where
  | ram (memory : Ram)
  | display (screen : Display)
  /-- A device without cells: it shows the low byte of each offset and ignores what is written. -/
  | ramp
  deriving DecidableEq

namespace Device

/-- What a device with cells is called, and how many cells it has. -/
def store? : Device → Option (Store × Nat)
  | .ram r => some (r.label, r.size)
  | .display d => some (.display, d.size)
  | .ramp => none

def read? : Device → Int → Except Fault UInt8
  | .ram r, a => r.read? a
  | .display d, a => d.read? a
  | .ramp, a => .ok (UInt8.ofNat (a % 256).toNat)

def writeFault? : Device → Int → Int → Option Fault
  | .ram r, a, d => r.writeFault? a d
  | .display s, a, d => s.writeFault? a d
  | .ramp, _, _ => none

def store : Device → Int → Int → Device
  | .ram r, a, d => .ram (r.store a d)
  | .display s, a, d => .display (s.store a d)
  | .ramp, _, _ => .ramp

def clear : Device → Device
  | .ram r => .ram r.clear
  | .display s => .display s.clear
  | .ramp => .ramp

end Device

end Chip8
