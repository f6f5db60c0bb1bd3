import Chip8.Machine.Step

/-!
Breakpoints: conditions on which a run stops, and the list in which they are kept.

A condition on the program counter is tested before a step, all others on the snapshot of a step
and on the registers before and after it.
-/

namespace Chip8

inductive Watch where
  /-- The program counter has a value. -/
  | pcMatch
  /-- An address is read. -/
  | memoryRead
  /-- An address is written. -/
  | memoryWrite
  /-- A register has a value. -/
  | registerValue
  /-- A register changes. -/
  | registerChange
  deriving DecidableEq, Repr

/-- A breakpoint. Which of the fields matter depends on what is watched, but two breakpoints are
equal only if all are. -/
structure Breakpoint where
  watch : Watch
  value? : Option Int
  address? : Option Int
  register? : Option String
  enabled : Bool
  deriving DecidableEq, Repr

namespace Breakpoint

/-- Whether a breakpoint stops a run at a program counter. -/
def matchesPc (b : Breakpoint) (pc : Int) : Bool :=
  b.enabled && b.watch == .pcMatch && b.value? == some pc

/-- Whether a log holds an access of a kind to an address. -/
def touched (log : Array Access) (kind : AccessKind) (address? : Option Int) : Bool :=
  log.any fun x => x.kind == kind && address? == some x.address

/-- Whether a breakpoint stops a run after a step with a log and registers before and after. -/
def matchesStep (b : Breakpoint) (log : Array Access) (before after : Cpu) : Bool :=
  b.enabled &&
    match b.watch with
    | .pcMatch => false
    | .memoryRead => touched log .read b.address?
    | .memoryWrite => touched log .write b.address?
    | .registerValue =>
      match b.register?.bind after.register? with
      | some v => b.value? == some v
      | none => false
    | .registerChange =>
      match b.register?.bind before.register?, b.register?.bind after.register? with
      | some v, some w => v != w
      | _, _ => false

/-! ### The list of breakpoints -/

/-- Adds a breakpoint unless an equal one is there. -/
def addTo (bs : List Breakpoint) (b : Breakpoint) : List Breakpoint :=
  if b ∈ bs then bs else bs ++ [b]

/-- Puts a breakpoint in the place of the first one that equals `old`, if there is one. -/
def replaceIn (bs : List Breakpoint) (old new : Breakpoint) : List Breakpoint :=
  match bs with
  | [] => []
  | b :: rest => if b = old then new :: rest else b :: replaceIn rest old new

/-- Takes the first breakpoint that equals `b` away, if there is one. -/
def removeFrom (bs : List Breakpoint) (b : Breakpoint) : List Breakpoint := bs.erase b

end Breakpoint

end Chip8
