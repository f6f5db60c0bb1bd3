import Chip8.Listing
import Chip8.Proofs.Machine.Action

/-!
Requests: all that can be asked of a machine from outside, with what it answers.

A request is an action, which here answers too, or a look, which changes nothing. `observe` is all
that an observer sees while requests are served one after the other.
-/

namespace Chip8.Machine

inductive Query where
  | peek (address : Int)
  | isPressed (key : Int)
  | mappedEnd
  | list (start length : Int)
  deriving DecidableEq, Repr

/-- One thing that can be asked of a machine. -/
inductive Request where
  | act (a : Action)
  | look (q : Query)
  deriving DecidableEq, Repr

inductive Answer where
  | done
  | byte (value : UInt8)
  | count (n : Nat)
  | truth (holds : Bool)
  | log (accesses : Array Access)
  | snapshot (s : Snapshot)
  | lines (ls : List Listing.Line)
  deriving DecidableEq, Repr

def Action.attempt : Action → Attempt Machine Answer
  | .step => Answer.snapshot <$> Machine.step
  | .tick => (fun _ => .done) <$> Attempt.update Machine.tick
  | .reset => (fun _ => .done) <$> Attempt.update Machine.reset
  | .press key => (fun _ => .done) <$> onKeypad (·.press? key)
  | .release key => (fun _ => .done) <$> onKeypad (·.release? key)
  | .releaseAll => (fun _ => .done) <$> onKeypad fun _ => .ok Keypad.released
  | .read address => Answer.byte <$> onBus (Bus.read address)
  | .write address value => (fun _ => .done) <$> onBus (Bus.write address value)
  | .clear => (fun _ => .done) <$> onBus (Attempt.update Bus.clear)
  | .takeLog => Answer.log <$> onBus Bus.takeLog
  | .load image start => Answer.count <$> onBus (Rom.load image start)
  | .loadFont base => (fun _ => .done) <$> onBus (Font.load base)

def Query.answer (m : Machine) : Query → Except Fault Answer
  | .peek address => (m.bus.peek? address).map .byte
  | .isPressed key => (m.keypad.pressed? key).map .truth
  | .mappedEnd => .ok (.count m.bus.mappedEnd)
  | .list start length => (Listing.lines? m.bus start length).map .lines

/-- Does what is asked and answers. -/
def serve : Request → Attempt Machine Answer
  | .act a => a.attempt
  | .look q => Attempt.ask fun m => q.answer m

/-- What an observer sees of a request: the answer, and what the machine shows afterwards. -/
structure Observation where
  answer : Except Fault Answer
  cpu : Cpu
  cycles : Nat
  display : Display
  reports : List UnknownWord

/-- What an observer sees of requests that are served one after the other. -/
def observe (m : Machine) : List Request → List Observation
  | [] => []
  | r :: rs =>
    let (answer, m) := serve r m
    ⟨answer, m.cpu, m.cycles, m.display, m.reports⟩ :: observe m rs

end Chip8.Machine
