import Chip8.Attempt
import Chip8.Memory.Device

/-!
The bus: numbered devices, the address regions that lead to them, and the log of the accesses made
since the log was last taken.

A region sends the addresses `first` to `last` to the offsets 0, 1, … of one device. Where regions
overlap the one registered first decides, so a later registration never moves an address. One
device may stand behind several regions. An access that fails is not logged and changes nothing.
-/

namespace Chip8

inductive AccessKind where
  | read
  | write
  deriving DecidableEq, Repr

structure Access where
  kind : AccessKind
  address : Int
  data : Int
  deriving DecidableEq, Repr

/-- The addresses `first` to `last`, which lead to a device. -/
structure Region where
  first : Nat
  last : Nat
  device : Nat
  deriving DecidableEq, Repr

def Region.Covers (r : Region) (a : Int) : Prop := r.first ≤ a ∧ a ≤ r.last

instance (r : Region) (a : Int) : Decidable (r.Covers a) :=
  inferInstanceAs (Decidable (_ ∧ _))

/-- Where an address leads: a device and an offset in it. -/
structure Location where
  device : Nat
  offset : Int
  deriving DecidableEq, Repr

/-- The location of an address under regions in the order of their registration. -/
def locate? : List Region → Int → Option Location
  | [], _ => none
  | r :: rs, a => if r.Covers a then some ⟨r.device, a - r.first⟩ else locate? rs a

/-- Devices, the regions that lead to them in the order of registration, and the log. -/
structure Bus where
  devices : Array Device
  regions : List Region
  log : Array Access
  deriving DecidableEq

namespace Bus

def empty : Bus := ⟨#[], [], #[]⟩

/-! ### Devices and regions -/

/-- Puts a device on the bus, without a region; its number is the number of devices so far. -/
def attach (b : Bus) (d : Device) : Bus := { b with devices := b.devices.push d }

/-- The fault, if any, of sending the addresses `first` to `last` to a device. -/
def registerFault? (b : Bus) (first last : Int) (device : Nat) : Option Fault :=
  if ¬ (0 ≤ first ∧ first ≤ last) then some .badRegion
  else
    match b.devices[device]? with
    | none => some .notADevice
    | some d =>
      match d.store? with
      | none => none
      | some (store, size) =>
        if (size : Int) = last - first + 1 then none
        else some (.sizeMismatch store size (last - first + 1))

/-- Sends the addresses `first` to `last` to a device. -/
def register (first last : Int) (device : Nat) : Attempt Bus Unit := fun b =>
  match b.registerFault? first last device with
  | some e => (.error e, b)
  | none => (.ok (), { b with regions := b.regions ++ [⟨first.toNat, last.toNat, device⟩] })

def location? (b : Bus) (a : Int) : Option Location := locate? b.regions a

def target? (b : Bus) (a : Int) : Option (Device × Location) :=
  (b.location? a).bind fun l => b.devices[l.device]?.map fun d => (d, l)

/-- The end, not included, of the addresses that some region covers. -/
def mappedEnd (b : Bus) : Nat := (b.regions.map fun r => r.last + 1).foldl max 0

/-! ### Access -/

/-- The byte at an address, read without a trace in the log. -/
def peek? (b : Bus) (a : Int) : Except Fault UInt8 :=
  match b.target? a with
  | some (d, l) => d.read? l.offset
  | none => .error (.unmapped a)

def record (b : Bus) (x : Access) : Bus := { b with log := b.log.push x }

def read (a : Int) : Attempt Bus UInt8 := fun b =>
  match b.peek? a with
  | .ok d => (.ok d, b.record ⟨.read, a, d.toNat⟩)
  | .error e => (.error e, b)

/-- The fault, if any, of writing a value at an address. -/
def writeFault? (b : Bus) (a v : Int) : Option Fault :=
  match b.target? a with
  | some (d, l) => d.writeFault? l.offset v
  | none => some (.unmapped a)

/-- The bus with a value stored at the location of an address. -/
def store : Bus → Int → Int → Bus
  | ⟨devices, regions, log⟩, a, v =>
    match locate? regions a with
    | some l => ⟨devices.modify l.device (·.store l.offset v), regions, log⟩
    | none => ⟨devices, regions, log⟩

def write (a v : Int) : Attempt Bus Unit := fun b =>
  match b.writeFault? a v with
  | some e => (.error e, b)
  | none => (.ok (), (b.store a v).record ⟨.write, a, v⟩)

/-- Writes values at consecutive addresses, stopping at the first that fails. -/
def writeFrom : Int → List Int → Attempt Bus Unit
  | _, [] => pure ()
  | a, v :: vs => do
    write a v
    writeFrom (a + 1) vs

/-- The bus with every device behind a region cleared; the log is left alone. -/
def clear (b : Bus) : Bus :=
  { b with devices := b.regions.foldl (fun ds r => ds.modify r.device Device.clear) b.devices }

def dropLog (b : Bus) : Bus := { b with log := #[] }

/-- Answers with the log and empties it. -/
def takeLog : Attempt Bus (Array Access) := fun b => (.ok b.log, b.dropLog)

end Bus

end Chip8
