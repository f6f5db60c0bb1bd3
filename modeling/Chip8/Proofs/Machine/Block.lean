import Chip8.Proofs.Machine.Transfer
import Chip8.Proofs.Memory.Block

/-!
Instructions on blocks of memory that are there as a whole.

Whatever devices are on the bus, an instruction that reads a block the bus holds succeeds, and what
it does is what its bytes say (`drawSprite_of_holds`, `loadRegisters_of_holds`). An instruction that
stores values where memories are mapped stores all of them (`storeValues_of_maps`).
-/

namespace Chip8.Machine

variable {m : Machine} {bytes : List UInt8}

/-- Rows whose bytes are held are read one after the other and drawn. -/
theorem drawRows_of_holds {address : Int} {row : Nat} (holds : m.bus.Holds (address + row) bytes)
    (x y : Int) (hit : Bool) :
    drawRows x y address bytes.length row hit m =
      (.ok (hit || (m.display.drawBytes x (y + row) bytes).1),
        { m with
          bus := m.bus.note (Bus.reads (address + row) bytes)
          display := (m.display.drawBytes x (y + row) bytes).2 }) := by
  induction bytes generalizing row hit m with
  | nil => simp [drawRows, Bus.reads]
  | cons byte bytes ih =>
      have next : address + (row : Int) + 1 = address + ((row + 1 : Nat) : Int) := by omega
      have below : y + (row : Int) + 1 = y + ((row + 1 : Nat) : Int) := by omega
      obtain ⟨first, rest⟩ := Bus.holds_cons.mp holds
      rw [next] at rest
      simp only [List.length_cons, drawRows, Attempt.bind_apply, onBus_apply,
        Bus.read_of_peek? first, onDisplay_apply]
      rw [ih (by simpa using rest)]
      simp [Bus.reads, next, below, Bool.or_assoc]

theorem drawSprite_of_holds (holds : m.bus.Holds m.cpu.i bytes) (x y : Register) :
    drawSprite x y bytes.length m =
      (.ok (), { m with
        cpu := m.cpu.setFlag
          (Cpu.bit (m.display.drawBytes (m.cpu.reg x) (m.cpu.reg y) bytes).1)
        bus := m.bus.note (Bus.reads m.cpu.i bytes)
        display := (m.display.drawBytes (m.cpu.reg x) (m.cpu.reg y) bytes).2 }) := by
  rw [← Bus.holds_add_zero] at holds
  simp only [drawSprite, Attempt.bind_apply, Attempt.view_apply, drawRows_of_holds holds]
  simp

/-- Registers are loaded with the bytes that are held, each of which is read once. -/
theorem loadRegisters_of_holds {address : Int} {k : Nat}
    (holds : m.bus.Holds (address + k) bytes) :
    loadRegisters address bytes.length k m =
      (.ok (), { m with
        cpu := m.cpu.loadFrom k bytes
        bus := m.bus.note (Bus.reads (address + k) bytes) }) := by
  induction bytes generalizing k m with
  | nil => simp [loadRegisters, Bus.reads, Cpu.loadFrom]
  | cons byte bytes ih =>
      have next : address + (k : Int) + 1 = address + ((k + 1 : Nat) : Int) := by omega
      obtain ⟨first, rest⟩ := Bus.holds_cons.mp holds
      rw [next] at rest
      simp only [List.length_cons, loadRegisters, Attempt.bind_apply, onBus_apply,
        Bus.read_of_peek? first, setCpu_apply]
      rw [ih (by simpa using rest)]
      simp [Bus.reads, Cpu.loadFrom, next]

/-- Where every address is mapped, all values are stored. -/
theorem storeValues_of_maps (hb : m.bus.Backed) {address : Int} {values : List Int}
    (bytes : ∀ v ∈ values, IsByte v) (mapped : ∀ k < values.length, m.bus.Maps (address + k)) :
    onBus (Bus.writeFrom address values) m =
      (.ok (), { m with
        bus := (m.bus.storeFrom address values).note (Bus.writes address values) }) := by
  rw [storeValues_eq hb address bytes, Bus.transferFault?_eq_none_iff.mpr mapped, answer_none,
    Bus.reach_of_maps mapped, List.take_length]

end Chip8.Machine
