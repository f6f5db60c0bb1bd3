import Chip8.Font
import Chip8.Proofs.Machine.Composition
import Chip8.Proofs.Machine.Step
import Chip8.Rom

/-!
Actions: everything that can happen to a machine, in any order and whether it succeeds or fails.

Each action leaves the wiring of a machine alone (`wiring_perform`) and keeps its registers bounded
(`bounded_perform`), whatever is on its bus. A *well-formed* machine has besides bounded registers a
backed bus and a binary screen. Each action keeps it well-formed (`WellFormed.perform`), and so does
every run of actions (`WellFormed.performAll`).
-/

namespace Chip8.Machine

/-- One thing that can happen to a machine. -/
inductive Action where
  | step
  | tick
  | reset
  | press (key : Int)
  | release (key : Int)
  | releaseAll
  | read (address : Int)
  | write (address value : Int)
  /-- Clears every device of the bus. -/
  | clear
  | takeLog
  /-- Loads a program image. -/
  | load (image : List UInt8) (start : Int)
  | loadFont (base : Int)
  deriving DecidableEq, Repr

/-- The actions that programs are subject to while they run. -/
def Action.isRoutine : Action → Bool
  | .step | .tick | .reset | .press _ | .release _ | .releaseAll | .write _ _ => true
  | .read _ | .clear | .takeLog | .load _ _ | .loadFont _ => false

def perform (m : Machine) : Action → Machine
  | .step => (Machine.step m).2
  | .tick => m.tick
  | .reset => m.reset
  | .press key => (onKeypad (·.press? key) m).2
  | .release key => (onKeypad (·.release? key) m).2
  | .releaseAll => (onKeypad (fun _ => .ok Keypad.released) m).2
  | .read address => (onBus (Bus.read address) m).2
  | .write address value => (onBus (Bus.write address value) m).2
  | .clear => { m with bus := m.bus.clear }
  | .takeLog => (onBus Bus.takeLog m).2
  | .load image start => (onBus (Rom.load image start) m).2
  | .loadFont base => (onBus (Font.load base) m).2

def performAll (m : Machine) (actions : List Action) : Machine := actions.foldl perform m

@[simp] theorem performAll_nil (m : Machine) : m.performAll [] = m := rfl

@[simp] theorem performAll_cons (m : Machine) (a : Action) (actions : List Action) :
    m.performAll (a :: actions) = (m.perform a).performAll actions := rfl

/-- Actions after actions are performed in their order. -/
theorem performAll_append (m : Machine) (first rest : List Action) :
    m.performAll (first ++ rest) = (m.performAll first).performAll rest := List.foldl_append

/-- What every action keeps, every run of actions keeps. -/
theorem performAll_induction {P : Machine → Prop} (preserved : ∀ m a, P m → P (m.perform a))
    {m : Machine} (h : P m) (actions : List Action) : P (m.performAll actions) := by
  induction actions generalizing m with
  | nil => exact h
  | cons a actions ih => exact ih (preserved m a h)

/-- An action on the keypad changes nothing else. -/
theorem onKeypad_snd (f : Keypad → Except Fault Keypad) (m : Machine) :
    ∃ keypad, (onKeypad f m).2 = { m with keypad := keypad } := by
  unfold onKeypad
  cases f m.keypad with
  | ok keypad => exact ⟨keypad, rfl⟩
  | error e => exact ⟨m.keypad, rfl⟩

variable {m : Machine}

/-! ### The wiring -/

theorem shape_load (image : List UInt8) (start : Int) (b : Bus) :
    (Rom.load image start b).2.shape = b.shape := by
  have kept : (Rom.load image start).Keeps fun b' => b'.shape = b.shape := by
    unfold Rom.load
    refine (Attempt.keeps_view Bus.mappedEnd).bind ?_
    intro mappedEnd
    by_cases large : start + image.length > mappedEnd
    · rw [if_pos large]
      exact Attempt.keeps_fail _
    · rw [if_neg large]
      refine (Bus.keeps_shape_writeFrom b.shape start _).bind ?_
      exact fun _ _ same => same
  exact kept b rfl

theorem shape_loadFont (base : Int) (b : Bus) : (Font.load base b).2.shape = b.shape := by
  have kept : (Font.load base).Keeps fun b' => b'.shape = b.shape := by
    unfold Font.load
    refine (Bus.keeps_shape_writeFrom b.shape base _).bind ?_
    exact fun _ _ same => same
  exact kept b rfl

theorem wiring_step (m : Machine) : (step m).2.wiring = m.wiring := by
  obtain ⟨halted, cycles, log, still | ⟨w, word, moved⟩⟩ := step_effect m
  · rw [still]
    rfl
  · rw [moved]
    exact wiring_execute (Operation.ofWord w) (m.dropLog.fetched w)

/-- Whatever happens to a machine, its devices stay where they are. -/
theorem wiring_perform (m : Machine) (a : Action) : (m.perform a).wiring = m.wiring := by
  cases a with
  | step => exact wiring_step m
  | tick => rfl
  | reset => rfl
  | press _ | release _ | releaseAll =>
      obtain ⟨keypad, changed⟩ := onKeypad_snd _ m
      rw [Machine.perform, changed]
      rfl
  | read address => exact wiring_onBus (Bus.shape_read address m.bus)
  | write address value => exact wiring_onBus (Bus.shape_write address value m.bus)
  | clear => simp only [Machine.perform, wiring, Bus.shape_clear]
  | takeLog => rfl
  | load image start => exact wiring_onBus (shape_load image start m.bus)
  | loadFont base => exact wiring_onBus (shape_loadFont base m.bus)

theorem wiring_performAll (m : Machine) (actions : List Action) :
    (m.performAll actions).wiring = m.wiring :=
  performAll_induction (P := fun m' => m'.wiring = m.wiring)
    (fun m' a same => (wiring_perform m' a).trans same) rfl actions

/-- No action touches the regions, or the number of cells behind them. -/
theorem shape_perform (m : Machine) (a : Action) : (m.perform a).bus.shape = m.bus.shape :=
  congrArg (·.2.2) (wiring_perform m a)

/-! ### The registers -/

/-- The fetch keeps the registers bounded and makes the program counter a machine word. -/
theorem bounded_fetched (h : m.cpu.Bounded) {w : Int} (hw : IsWord w) :
    (m.dropLog.fetched w).cpu.Bounded :=
  { h with word := hw }

/-- Behind a word that was fetched the program counter is reduced to 16 bits. -/
theorem isWord_pc_fetched (m : Machine) (w : Int) : IsWord (m.dropLog.fetched w).cpu.pc :=
  isWord_emod _

theorem bounded_step (h : m.cpu.Bounded) : (step m).2.cpu.Bounded := by
  obtain ⟨halted, cycles, log, still | ⟨w, word, moved⟩⟩ := step_effect m
  · rw [still]
    exact { h with }
  · have fetched := bounded_fetched h (Bus.isWord_of_wordAt? word)
    have after : ((Operation.ofWord w).execute (m.dropLog.fetched w)).2.cpu.Bounded := by
      unfold Operation.execute
      cases (Operation.ofWord w).instruction? with
      | none => exact fetched
      | some i => exact i.bounded_execute fetched (isWord_pc_fetched m w)
    rw [moved]
    exact { after with }

/-- Every action leaves the registers within their widths. -/
theorem bounded_perform (h : m.cpu.Bounded) (a : Action) : (m.perform a).cpu.Bounded := by
  cases a with
  | step => exact bounded_step h
  | tick => exact h.tick
  | reset => exact Cpu.bounded_initial m.programStart
  | press _ | release _ | releaseAll =>
      obtain ⟨keypad, changed⟩ := onKeypad_snd _ m
      rw [Machine.perform, changed]
      exact h
  | _ => exact h

/-! ### Well-formed machines -/

/-- The bus is backed, the registers are bounded and the screen is binary. -/
structure WellFormed (m : Machine) : Prop where
  backed : m.bus.Backed
  bounded : m.cpu.Bounded
  binary : m.display.IsBinary

theorem isBinary_step (hb : m.bus.Backed) (binary : m.display.IsBinary) :
    (step m).2.display.IsBinary := by
  obtain ⟨halted, cycles, log, still | ⟨w, word, moved⟩⟩ := step_effect m
  · rw [still]
    exact binary
  · rw [moved]
    unfold Operation.execute
    cases (Operation.ofWord w).instruction? with
    | none => exact binary
    | some i => exact i.isBinary_execute (m := m.dropLog.fetched w) hb binary

theorem WellFormed.perform (h : m.WellFormed) (a : Action) : (m.perform a).WellFormed where
  backed := h.backed.of_shape (shape_perform m a)
  bounded := bounded_perform h.bounded a
  binary := by
    cases a with
    | step => exact isBinary_step h.backed h.binary
    | press _ | release _ | releaseAll =>
        obtain ⟨keypad, changed⟩ := onKeypad_snd _ m
        rw [Machine.perform, changed]
        exact h.binary
    | _ => exact h.binary

/-- However often a machine is acted on, it stays well-formed. -/
theorem WellFormed.performAll (h : m.WellFormed) (actions : List Action) :
    (m.performAll actions).WellFormed :=
  performAll_induction (fun _ a h => h.perform a) h actions

end Chip8.Machine
