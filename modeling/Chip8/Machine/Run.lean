import Chip8.Machine.Step

/-!
Runs: a number of steps in a row, with the timers ticking after every so many of them, up to the
first step that fails.
-/

namespace Chip8

/-- How a run ended: the snapshots of its successful steps in order, and the fault that stopped it
early, if any. -/
structure Run where
  snapshots : List Snapshot
  fault? : Option Fault
  deriving DecidableEq, Repr

namespace Machine

/-- Executes `count` instructions, of which `done` have been executed before, ticking the timers
after each one whose number is a multiple of `period`; no tick with a period of zero. -/
def runFrom (period : Nat) : Nat → Nat → Machine → Run × Machine
  | 0, _, m => (⟨[], none⟩, m)
  | count + 1, done, m =>
    match step m with
    | (.error e, m) => (⟨[], some e⟩, m)
    | (.ok s, m) =>
      let m := if period ≠ 0 ∧ (done + 1) % period = 0 then m.tick else m
      match runFrom period count (done + 1) m with
      | (r, m) => ({ r with snapshots := s :: r.snapshots }, m)

/-- Executes `count` instructions with a tick of the timers after every `period` of them. -/
def run (count period : Nat) (m : Machine) : Run × Machine := runFrom period count 0 m

end Machine

end Chip8
