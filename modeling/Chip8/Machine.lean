import Chip8.Cpu
import Chip8.Font
import Chip8.Keypad
import Chip8.Random

/-!
The machine: processor, memory bus, display, keypad and random source, with the count of the
instructions executed since the last reset and the reports of words that stand for no instruction.
-/

namespace Chip8

structure Machine where
  cpu : Cpu
  /-- The cycles of the instructions executed since the last reset. -/
  cycles : Nat
  bus : Bus
  display : Display
  keypad : Keypad
  random : RandomSource
  fontAddress : Int
  programStart : Int
  /-- The words met so far that stand for no instruction, in order. -/
  reports : List UnknownWord

namespace Machine

def defaultProgramStart : Int := 0x200

/-- A machine as it is switched on. -/
def create (bus : Bus) (display : Display) (random : RandomSource) (fontAddress programStart : Int) :
    Machine where
  cpu := Cpu.initial programStart
  cycles := 0
  bus := bus
  display := display
  keypad := Keypad.released
  random := random
  fontAddress := fontAddress
  programStart := programStart
  reports := []

/-! ### Acting on a part -/

def onBus {α : Type} (act : Attempt Bus α) : Attempt Machine α
  | ⟨cpu, cycles, bus, display, keypad, random, fontAddress, programStart, reports⟩ =>
    match act bus with
    | (r, bus) => (r, ⟨cpu, cycles, bus, display, keypad, random, fontAddress, programStart, reports⟩)

def onCpu {α : Type} (act : Attempt Cpu α) : Attempt Machine α
  | ⟨cpu, cycles, bus, display, keypad, random, fontAddress, programStart, reports⟩ =>
    match act cpu with
    | (r, cpu) => (r, ⟨cpu, cycles, bus, display, keypad, random, fontAddress, programStart, reports⟩)

def setCpu (f : Cpu → Cpu) : Attempt Machine Unit := onCpu (Attempt.update f)

def onDisplay {α : Type} (act : Display → α × Display) : Attempt Machine α
  | ⟨cpu, cycles, bus, display, keypad, random, fontAddress, programStart, reports⟩ =>
    match act display with
    | (a, display) =>
      (.ok a, ⟨cpu, cycles, bus, display, keypad, random, fontAddress, programStart, reports⟩)

def writeDisplay (a v : Int) : Attempt Machine Unit := fun m =>
  match m.display.writeFault? a v with
  | some e => (.error e, m)
  | none => (.ok (), { m with display := m.display.store a v })

/-- Replaces the keypad unless the replacement is refused. -/
def onKeypad (f : Keypad → Except Fault Keypad) : Attempt Machine Unit := fun m =>
  match f m.keypad with
  | .ok p => (.ok (), { m with keypad := p })
  | .error e => (.error e, m)

def drawRandom : Attempt Machine Int := fun m =>
  match m.random.draw with
  | (v, random) => (.ok v, { m with random := random })

section Apply

variable {α : Type} (m : Machine)

@[simp] theorem onBus_apply (act : Attempt Bus α) :
    onBus act m = ((act m.bus).1, { m with bus := (act m.bus).2 }) := rfl

@[simp] theorem onCpu_apply (act : Attempt Cpu α) :
    onCpu act m = ((act m.cpu).1, { m with cpu := (act m.cpu).2 }) := rfl

@[simp] theorem setCpu_apply (f : Cpu → Cpu) : setCpu f m = (.ok (), { m with cpu := f m.cpu }) :=
  rfl

@[simp] theorem onDisplay_apply (act : Display → α × Display) :
    onDisplay act m = (.ok (act m.display).1, { m with display := (act m.display).2 }) := rfl

@[simp] theorem drawRandom_apply :
    drawRandom m = (.ok m.random.draw.1, { m with random := m.random.draw.2 }) := rfl

end Apply

/-! ### Reset and time -/

/-- Sets the registers back to their initial values. Memory, display, keypad and random source stay
as they are. -/
def reset (m : Machine) : Machine := { m with cpu := Cpu.initial m.programStart, cycles := 0 }

/-- One tick of the timers, which run apart from the processor. -/
def tick (m : Machine) : Machine := { m with cpu := m.cpu.tick }

def soundActive (m : Machine) : Bool := 0 < m.cpu.sound

end Machine

end Chip8
