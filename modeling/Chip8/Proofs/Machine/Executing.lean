import Chip8.Proofs.Machine.Failure

/-!
What an operation does, by itself and as a step.

A step executes the operation of the word that it fetches on a machine that differs from the one
before the step in the program counter, the word and the log, and afterwards counts the cycles and
takes the log. `Executes` says of both that they succeed and leave a machine with some property; a
property of the other parts has to be shown for the operation alone (`executes_of_execute`,
`executes_setCpu`). An instruction that changes the processor alone determines the whole step
(`step_of_cpu`).
-/

namespace Chip8.Machine

variable {m : Machine} {w : Int} {i : Instruction}

/-- Executing the operation of a word leaves a machine with a property, and so does a step that
fetches the word. Neither fails. -/
structure Executes (m : Machine) (w : Int) (After : Machine → Prop) : Prop where
  alone : ∃ m', (Operation.ofWord w).execute m = (.ok (), m') ∧ After m'
  fetched : m.Fetches w → ∃ s m', step m = (.ok s, m') ∧ After m'

/-- What holds after an execution may be weakened. -/
theorem Executes.mono {After After' : Machine → Prop} (h : m.Executes w After)
    (weaker : ∀ m', After m' → After' m') : m.Executes w After' := by
  constructor
  · obtain ⟨m', executed, after⟩ := h.alone
    exact ⟨m', executed, weaker m' after⟩
  · intro fetches
    obtain ⟨s, m', stepped, after⟩ := h.fetched fetches
    exact ⟨s, m', stepped, weaker m' after⟩

/-- It is enough to look at the instruction of a word, on a machine and on the machine that fetched
it. -/
theorem executes_of_execute {After : Machine → Prop} (encoded : i.Encodes w)
    (alone : ∃ m', i.execute m = (.ok (), m') ∧ After m')
    (fetched : ∃ m', i.execute (m.dropLog.fetched w) = (.ok (), m') ∧ After m')
    (completed : ∀ (m' : Machine) (cycles : Nat), After m' →
      After { m' with cycles := cycles, bus := m'.bus.dropLog }) : m.Executes w After := by
  have decoded := Instruction.decode?_eq_some_iff.mpr encoded
  constructor
  · rw [execute_ofWord decoded]
    exact alone
  · intro fetches
    obtain ⟨m', executed, after⟩ := fetched
    rw [step_of_word fetches.running fetches.word, execute_ofWord decoded, executed]
    exact ⟨_, _, rfl, completed m' (m'.cycles + (Operation.ofWord w).cycles) after⟩

/-- An instruction that only sets registers sets the same ones as part of a step. -/
theorem executes_setCpu {f : Cpu → Cpu} {After : Cpu → Prop} (encoded : i.Encodes w)
    (sets : i.execute = setCpu f) (alone : After (f m.cpu))
    (fetched : After (f (m.dropLog.fetched w).cpu)) : m.Executes w fun m' => After m'.cpu := by
  apply executes_of_execute encoded
  · exact ⟨_, congrFun sets m, alone⟩
  · exact ⟨_, congrFun sets (m.dropLog.fetched w), fetched⟩
  · intro m' cycles after
    exact after

/-- The machine after a step that changes nothing but the processor. -/
def proceed (m : Machine) (c : Cpu) : Machine :=
  { m with cpu := c, cycles := m.cycles + 1, bus := m.bus.dropLog }

/-- A step whose instruction changes the processor alone counts, empties the log, and leaves the
rest as it is. -/
theorem step_of_cpu (fetches : m.Fetches w) (encoded : i.Encodes w) {c : Cpu}
    (executed : i.execute (m.dropLog.fetched w) = (.ok (), { m.dropLog.fetched w with cpu := c })) :
    step m =
      (.ok ⟨m.cpu.pc, Operation.ofWord w, c, m.cycles + 1,
          #[⟨.read, m.cpu.pc, w / 256⟩, ⟨.read, m.cpu.pc + 1, w % 256⟩]⟩,
        m.proceed c) := by
  rw [step_of_word fetches.running fetches.word,
    execute_ofWord (Instruction.decode?_eq_some_iff.mpr encoded), executed]
  rfl

end Chip8.Machine
