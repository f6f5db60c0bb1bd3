import Chip8.Machine.Execute

/-!
A step: fetch the word at the program counter, decode it, execute it, and show what happened in a
snapshot.

A step begins by emptying the log, so the log of its snapshot is its own. A fault of a halting kind
halts the processor; a halted processor refuses every step until it is reset.
-/

namespace Chip8

open Numeral

/-- What one successful step did: where the word was fetched, the operation, the registers after
it, the cycle count after it, and its accesses to the bus in order. -/
structure Snapshot where
  address : Int
  operation : Operation
  cpu : Cpu
  cycle : Nat
  log : Array Access
  deriving DecidableEq, Repr

/-- The line of a trace: address and assembly text. -/
def Snapshot.text (s : Snapshot) : String := taggedHex 6 s.address ++ ": " ++ s.operation.text

namespace Machine

/-- Reads the two bytes at the program counter as one word, the upper byte first, and moves the
program counter behind them. -/
def fetch : Attempt Machine Int := do
  let pc ← Attempt.view fun m => m.cpu.pc
  let high ← onBus (Bus.read pc)
  let low ← onBus (Bus.read (pc + 1))
  let word : Int := high.toNat * 256 + low.toNat
  setCpu fun c => { c with word := word, pc := (pc + 2) % 65536 }
  return word

def fetchAndExecute : Attempt Machine Operation := do
  let word ← fetch
  (Operation.ofWord word).execute
  return Operation.ofWord word

def halt (m : Machine) : Machine := { m with cpu := { m.cpu with halted := true } }

def dropLog (m : Machine) : Machine := { m with bus := m.bus.dropLog }

/-- Counts the cycles of an operation fetched at an address and takes the log. -/
def complete (address : Int) (o : Operation) : Attempt Machine Snapshot := fun m =>
  let m := { m with cycles := m.cycles + o.cycles }
  (.ok ⟨address, o, m.cpu, m.cycles, m.bus.log⟩, m.dropLog)

def step : Attempt Machine Snapshot := fun m =>
  let address := m.cpu.pc
  let m := m.dropLog
  if m.cpu.halted then (.error (.halted address), m)
  else
    match fetchAndExecute m with
    | (.ok o, m) => complete address o m
    | (.error e, m) => (.error e, if e.halts then m.halt else m)

end Machine

end Chip8
