import Chip8.Debugger.Breakpoint

/-!
The debugger: it steps a machine, keeps the snapshots, and runs until a breakpoint, a limit, a
request to stop or a fault ends the run.

A run that starts at a breakpoint on the program counter passes over it once. Without a limit a run
need not end, so `run` is given a budget of rounds and answers `none` where that is used up.
-/

namespace Chip8

open Numeral

/-- A debugger: its breakpoints, whether a run is under way, the registers before the last step
that it made, and the snapshots of its successful steps. -/
structure Debugger where
  breakpoints : List Breakpoint
  running : Bool
  before : Cpu
  last? : Option Snapshot
  history : Array Snapshot
  deriving DecidableEq

namespace Debugger

def create (c : Cpu) : Debugger := ⟨[], false, c, none, #[]⟩

/-- Adds a breakpoint unless an equal one is there. -/
def add (d : Debugger) (b : Breakpoint) : Debugger :=
  { d with breakpoints := Breakpoint.addTo d.breakpoints b }

def replace (d : Debugger) (old new : Breakpoint) : Debugger :=
  { d with breakpoints := Breakpoint.replaceIn d.breakpoints old new }

def remove (d : Debugger) (b : Breakpoint) : Debugger :=
  { d with breakpoints := Breakpoint.removeFrom d.breakpoints b }

def stop (d : Debugger) : Debugger := { d with running := false }

/-- Whether a breakpoint stops a run at a program counter. -/
def stopsAt (d : Debugger) (pc : Int) : Bool := d.breakpoints.any fun b => b.matchesPc pc

/-- Whether a breakpoint stops a run after a step with a log, which left these registers. -/
def stopsAfter (d : Debugger) (log : Array Access) (after : Cpu) : Bool :=
  d.breakpoints.any fun b => b.matchesStep log d.before after

def keep (d : Debugger) (s : Snapshot) : Debugger :=
  { d with last? := some s, history := d.history.push s }

end Debugger

/-- Whoever is told of the words that stand for no instruction. Whether it asks for a stop when it
is told of one may depend on all reports up to that one. -/
structure Listener where
  asksStop : List UnknownWord → Bool

/-- A listener that judges each report by itself. -/
instance : Coe (UnknownWord → Bool) Listener where
  coe judge := ⟨fun reports => reports.getLast?.any judge⟩

structure Session where
  machine : Machine
  debugger : Debugger

/-- How a run of the debugger ended: the steps it made, and the program counter at which a
breakpoint stopped it. -/
structure Halt where
  steps : Nat
  breakpoint? : Option Int
  deriving DecidableEq, Repr

/-- The line that reports the breakpoint. -/
def Halt.message? (h : Halt) : Option String :=
  h.breakpoint?.map fun pc => "Breakpoint hit at PC: " ++ taggedHex 6 pc

namespace Session

def create (m : Machine) : Session := ⟨m, Debugger.create m.cpu⟩

/-- Acts on the machine directly, past the debugger. -/
def onMachine {α : Type} (act : Attempt Machine α) : Attempt Session α
  | ⟨m, d⟩ =>
    match act m with
    | (r, m) => (r, ⟨m, d⟩)

/-- Executes one instruction under the debugger. The listener is told of a word that it reports. -/
def step (listener : Listener) : Attempt Session Snapshot
  | ⟨m, d⟩ =>
    let d := { d with before := m.cpu }
    let reported := m.reports.length
    match m.step with
    | (r, m) =>
      let d := if reported < m.reports.length && listener.asksStop m.reports then d.stop else d
      match r with
      | .ok s => (.ok s, ⟨m, d.keep s⟩)
      | .error e => (.error e, ⟨m, d⟩)

def limitReached (limit? : Option Int) (steps : Nat) : Bool :=
  match limit? with
  | some n => n ≤ steps
  | none => false

/-- The rounds of a run after `steps` steps, `budget` of them at most. -/
def rounds (listener : Listener) (limit? : Option Int) :
    Nat → Nat → Session → Option (Except Fault Halt × Session)
  | 0, _, _ => none
  | budget + 1, steps, s =>
    if !s.debugger.running || limitReached limit? steps then some (.ok ⟨steps, none⟩, s)
    else if s.debugger.stopsAt s.machine.cpu.pc then
      some (.ok ⟨steps, some s.machine.cpu.pc⟩, s)
    else
      match s.step listener with
      | (.error e, s) => some (.error e, s)
      | (.ok snapshot, s) =>
        if s.debugger.stopsAfter snapshot.log s.machine.cpu then
          some (.ok ⟨steps + 1, some snapshot.cpu.pc⟩, s)
        else rounds listener limit? budget (steps + 1) s

/-- A run up to its end; the debugger counts as running all the while. -/
def runFrom (listener : Listener) (limit? : Option Int) (budget : Nat) (s : Session) :
    Option (Except Fault Halt × Session) :=
  if s.debugger.stopsAt s.machine.cpu.pc && !limitReached limit? 0 then
    match s.step listener with
    | (.error e, s) => some (.error e, s)
    | (.ok snapshot, s) =>
      if s.debugger.stopsAfter snapshot.log s.machine.cpu then
        some (.ok ⟨1, some snapshot.cpu.pc⟩, s)
      else rounds listener limit? budget 1 s
  else rounds listener limit? budget 0 s

/-- Runs until something ends the run; `none` if nothing does within the budget of rounds. -/
def run (listener : Listener) (limit? : Option Int) (budget : Nat) (s : Session) :
    Option (Except Fault Halt × Session) :=
  (runFrom listener limit? budget { s with debugger := { s.debugger with running := true } }).map
    fun (r, s) => (r, { s with debugger := s.debugger.stop })

end Session

end Chip8
