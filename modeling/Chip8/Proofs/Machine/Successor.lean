import Chip8.Proofs.Keypad
import Chip8.Proofs.Machine.Touch

/-!
Where a step leaves the program counter.

The program counter changes twice within a step: the fetch moves it behind the word, and the
instruction may move it again. `successor` puts both together, for every word and from the machine
before the step alone, and a step that succeeds leaves the program counter there
(`pc_after_step`).
-/

namespace Chip8

namespace Machine

open Word

def Skips (m : Machine) (w : Int) : Prop :=
  (group w).val = 0x3 ∧ m.cpu.reg (x w) = (byte w).toNat ∨
  (group w).val = 0x4 ∧ m.cpu.reg (x w) ≠ (byte w).toNat ∨
  (group w).val = 0x5 ∧ m.cpu.reg (x w) = m.cpu.reg (y w) ∨
  (group w).val = 0x9 ∧ m.cpu.reg (x w) ≠ m.cpu.reg (y w) ∨
  (group w).val = 0xE ∧ byte w = 0x9E ∧ m.namedKeyDown (x w) = true ∨
  (group w).val = 0xE ∧ byte w = 0xA1 ∧ m.namedKeyDown (x w) = false

instance (m : Machine) (w : Int) : Decidable (m.Skips w) :=
  inferInstanceAs (Decidable (_ ∨ _))

/-- The return address on top of the stack. -/
def returnAddress (m : Machine) : Int :=
  ((Cpu.slot? (m.cpu.sp - 1)).map m.cpu.stack.get).getD 0

/-- The address to go on at after a word at the program counter was executed. -/
def successor (m : Machine) (w : Int) : Int :=
  if (group w).val = 0x1 ∨ (group w).val = 0x2 then (target w).val
  else if (group w).val = 0xB then ((target w).val + m.cpu.jumpOffset) % 65536
  else if (group w).val = 0x0 ∧ (low w).val = 0xE then m.returnAddress
  else if (group w).val = 0xF ∧ byte w = 0x0A ∧ ∀ k, m.keypad.isDown k = false then m.cpu.pc
  else if m.Skips w then (m.cpu.pc + 4) % 65536
  else (m.cpu.pc + 2) % 65536

variable {m : Machine} {w : Int}

/-- A word that does not touch the program counter is followed by the next one. -/
theorem successor_of_untouched (h : ¬ m.Touches w .programCounter) :
    m.successor w = (m.cpu.pc + 2) % 65536 := by
  simp only [Touches, not_or] at h
  obtain ⟨h0, h1, h2, h3, h4, h5, h9, hB, hE, hF⟩ := h
  have noSkip : ¬ m.Skips w := by
    rintro (⟨g, _⟩ | ⟨g, _⟩ | ⟨g, _⟩ | ⟨g, _⟩ | ⟨g, b, _⟩ | ⟨g, b, _⟩)
    · exact h3 g
    · exact h4 g
    · exact h5 g
    · exact h9 g
    · exact hE ⟨g, .inl b⟩
    · exact hE ⟨g, .inr b⟩
  have noWait : ¬ ((group w).val = 0xF ∧ byte w = 0x0A ∧ ∀ k, m.keypad.isDown k = false) := by
    rintro ⟨g, b, _⟩
    exact hF ⟨g, b⟩
  rw [successor, if_neg (not_or.mpr ⟨h1, h2⟩), if_neg hB, if_neg h0, if_neg noWait, if_neg noSkip]

/-! ### Instructions that move the program counter -/

/-- A skip goes on behind the next word or at it. -/
theorem pc_skipIf_fetched (m : Machine) (w : Int) (p : Bool) :
    ((m.dropLog.fetched w).cpu.skipIf p).pc =
      if p = true then (m.cpu.pc + 4) % 65536 else (m.cpu.pc + 2) % 65536 := by
  cases p with
  | false => rfl
  | true =>
      have twice : ((m.cpu.pc + 2) % 65536 + 2) % 65536 = (m.cpu.pc + 4) % 65536 := by omega
      exact twice

/-- A word of a skipping group goes on two addresses later if its condition holds. -/
theorem successor_of_skipping (h : (group w).val ∈ [0x3, 0x4, 0x5, 0x9, 0xE]) :
    m.successor w = if m.Skips w then (m.cpu.pc + 4) % 65536 else (m.cpu.pc + 2) % 65536 := by
  simp only [List.mem_cons, List.not_mem_nil, or_false] at h
  rcases h with g | g | g | g | g <;> simp [successor, g]

/-- A skip goes to the successor of its word if it skips exactly where the word does. -/
theorem pc_skipIf_eq_successor {p : Bool} (h : (group w).val ∈ [0x3, 0x4, 0x5, 0x9, 0xE])
    (skips : p = true ↔ m.Skips w) :
    ((m.dropLog.fetched w).cpu.skipIf p).pc = m.successor w := by
  rw [pc_skipIf_fetched, successor_of_skipping h]
  simp only [skips]

end Machine

namespace Instruction

open Machine Word

variable {m : Machine} {w : Int}

/-- An instruction that succeeds on what the fetch of its word left goes to the successor. -/
theorem pc_execute_fetched (hc : m.cpu.Regular) (pc : IsWord m.cpu.pc) {i : Instruction}
    (encoded : i.Encodes w) (success : (i.execute (m.dropLog.fetched w)).1 = .ok ()) :
    (i.execute (m.dropLog.fetched w)).2.cpu.pc = m.successor w := by
  have low := hc.sp_nonneg
  have high : m.cpu.sp ≤ 16 := hc.sp_le
  -- What does not touch the program counter leaves it where the fetch put it.
  have kept (untouched : ¬ m.Touches w .programCounter) :
      (i.execute (m.dropLog.fetched w)).2.cpu.pc = m.successor w := by
    rw [successor_of_untouched untouched]
    exact within_execute (m := m.dropLog.fetched w) low encoded .programCounter untouched
  cases i with
  | ret =>
      obtain ⟨g, l⟩ := encoded
      have nonempty : (m.dropLog.fetched w).cpu.sp ≠ 0 := by
        intro empty
        simp only [execute, onCpu_apply, Cpu.ret_of_zero empty] at success
        cases success
      have positive : 0 < m.cpu.sp := Int.lt_iff_le_and_ne.mpr ⟨low, nonempty.symm⟩
      have top : Cpu.slot? (m.cpu.sp - 1) = some ⟨(m.cpu.sp - 1).toNat, by omega⟩ :=
        Cpu.slot?_of_lt (by omega) (by omega)
      have successor : m.successor w = m.returnAddress := by simp [Machine.successor, g, l]
      rw [successor, returnAddress, top]
      simp only [execute, onCpu_apply,
        Cpu.ret_of_pos (c := (m.dropLog.fetched w).cpu) positive high]
      rfl
  | call t =>
      obtain ⟨g, rfl⟩ := encoded
      have room : (m.dropLog.fetched w).cpu.sp ≠ 16 := by
        intro full
        simp only [execute, onCpu_apply, Cpu.call_of_full full] at success
        cases success
      have below : (m.dropLog.fetched w).cpu.sp < 16 := Int.lt_iff_le_and_ne.mpr ⟨high, room⟩
      have successor : m.successor w = (target w).val := by simp [Machine.successor, g]
      rw [successor]
      simp only [execute, onCpu_apply, Cpu.call_of_room (c := (m.dropLog.fetched w).cpu) low below]
  | jump t =>
      obtain ⟨g, rfl⟩ := encoded
      have successor : m.successor w = (target w).val := by simp [Machine.successor, g]
      exact successor.symm
  | jumpOffset t =>
      obtain ⟨g, rfl⟩ := encoded
      have successor : m.successor w = ((target w).val + m.cpu.jumpOffset) % 65536 := by
        simp [Machine.successor, g]
      exact successor.symm
  | skipIfByte r b =>
      obtain ⟨g, rfl, rfl⟩ := encoded
      have skips : m.Skips w ↔ m.cpu.reg (x w) = (byte w).toNat := by simp [Skips, g]
      exact pc_skipIf_eq_successor (by simp [g]) (beq_iff_eq.trans skips.symm)
  | skipUnlessByte r b =>
      obtain ⟨g, rfl, rfl⟩ := encoded
      have skips : m.Skips w ↔ m.cpu.reg (x w) ≠ (byte w).toNat := by simp [Skips, g]
      exact pc_skipIf_eq_successor (by simp [g]) (bne_iff_ne.trans skips.symm)
  | skipIfEqual r s =>
      obtain ⟨g, rfl, rfl⟩ := encoded
      have skips : m.Skips w ↔ m.cpu.reg (x w) = m.cpu.reg (y w) := by simp [Skips, g]
      exact pc_skipIf_eq_successor (by simp [g]) (beq_iff_eq.trans skips.symm)
  | skipUnlessEqual r s =>
      obtain ⟨g, rfl, rfl⟩ := encoded
      have skips : m.Skips w ↔ m.cpu.reg (x w) ≠ m.cpu.reg (y w) := by simp [Skips, g]
      exact pc_skipIf_eq_successor (by simp [g]) (bne_iff_ne.trans skips.symm)
  | skipIfKey r =>
      obtain ⟨g, b, rfl⟩ := encoded
      have skips : m.Skips w ↔ m.namedKeyDown (x w) = true := by simp [Skips, g, b]
      exact pc_skipIf_eq_successor (by simp [g]) skips.symm
  | skipUnlessKey r =>
      obtain ⟨g, b, rfl⟩ := encoded
      have skips : m.Skips w ↔ m.namedKeyDown (x w) = false := by simp [Skips, g, b]
      refine pc_skipIf_eq_successor (by simp [g]) ?_
      rw [skips, Bool.not_eq_true']
      rfl
  | awaitKey r =>
      obtain ⟨g, b, rfl⟩ := encoded
      have successor : m.successor w =
          if ∀ k, m.keypad.isDown k = false then m.cpu.pc else (m.cpu.pc + 2) % 65536 := by
        simp [Machine.successor, Skips, g, b]
      have keypad : (m.dropLog.fetched w).keypad = m.keypad := rfl
      rw [execute, awaitKey_apply, successor, keypad]
      cases lowest : m.keypad.lowest? with
      | none =>
          -- The wait moves back over its own word, around the end of the address space if need be.
          have back : ((m.cpu.pc + 2) % 65536 + -2) % 65536 = m.cpu.pc := by
            obtain ⟨low, high⟩ := pc
            omega
          rw [if_pos (Keypad.lowest?_eq_none_iff.mp lowest)]
          exact back
      | some k =>
          have pressed : ¬ ∀ k, m.keypad.isDown k = false := by
            intro up
            rw [Keypad.lowest?_eq_none_iff.mpr up] at lowest
            cases lowest
          rw [if_neg pressed]
          rfl
  | _ =>
      simp only [Encodes] at encoded
      exact kept (by simp [Touches, encoded])

end Instruction

namespace Machine

open Word

variable {m : Machine} {w : Int}

/-- A word that stands for no instruction does not touch the program counter. -/
theorem not_touches_pc_of_unknown (unknown : Instruction.decode? w = none) :
    ¬ m.Touches w .programCounter := by
  have none (i : Instruction) : ¬ i.Encodes w := by
    intro encoded
    rw [Instruction.decode?_eq_some_iff.mpr encoded] at unknown
    cases unknown
  rintro (⟨g, l⟩ | g | g | g | g | g | g | g | ⟨g, b | b⟩ | ⟨g, b⟩)
  · exact none .ret ⟨g, l⟩
  · exact none (.jump _) ⟨g, rfl⟩
  · exact none (.call _) ⟨g, rfl⟩
  · exact none (.skipIfByte _ _) ⟨g, rfl, rfl⟩
  · exact none (.skipUnlessByte _ _) ⟨g, rfl, rfl⟩
  · exact none (.skipIfEqual _ _) ⟨g, rfl, rfl⟩
  · exact none (.skipUnlessEqual _ _) ⟨g, rfl, rfl⟩
  · exact none (.jumpOffset _) ⟨g, rfl⟩
  · exact none (.skipIfKey _) ⟨g, b, rfl⟩
  · exact none (.skipUnlessKey _) ⟨g, b, rfl⟩
  · exact none (.awaitKey _) ⟨g, b, rfl⟩

end Machine

end Chip8
