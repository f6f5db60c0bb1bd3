import Chip8.Proofs.Machine.Record
import Chip8.Proofs.Memory.Twin

/-!
What an instruction word may change.

`Touches` lists for each word the parts of a machine that it may change; everything else is as
before, whether the instruction succeeds or fails part way (`within_execute`). Beside its effect a
step leaves marks of its own: the program counter moves behind the word, the processor may halt, and
the cycles are counted (`step_changes_only_touched`).
-/

namespace Chip8

namespace Machine

open Word

inductive Part where
  /-- The byte at a location. -/
  | cell (l : Location)
  | display
  | register (x : Register)
  | index
  | delay
  | sound
  | stackPointer
  /-- A slot of the stack. -/
  | slot (k : Fin 16)
  | programCounter
  | random
  | keypad
  | halted
  | cycles
  deriving DecidableEq

def Part.Same (m m' : Machine) : Part → Prop
  | .cell l => m'.bus.byteAt l = m.bus.byteAt l
  | .display => m'.display = m.display
  | .register x => m'.cpu.reg x = m.cpu.reg x
  | .index => m'.cpu.i = m.cpu.i
  | .delay => m'.cpu.delay = m.cpu.delay
  | .sound => m'.cpu.sound = m.cpu.sound
  | .stackPointer => m'.cpu.sp = m.cpu.sp
  | .slot k => m'.cpu.stack.get k = m.cpu.stack.get k
  | .programCounter => m'.cpu.pc = m.cpu.pc
  | .random => m'.random = m.random
  | .keypad => m'.keypad = m.keypad
  | .halted => m'.cpu.halted = m.cpu.halted
  | .cycles => m'.cycles = m.cycles

/-- The parts where a step leaves marks beside the effect of the instruction. -/
def Part.isMark : Part → Bool
  | .programCounter | .halted | .cycles => true
  | _ => false

/-- Whether an instruction word may change a part of a machine. -/
def Touches (m : Machine) (w : Int) : Part → Prop
  | .cell l => ∃ a, m.bus.location? a = some l ∧ (group w).val = 0xF ∧
      (byte w = 0x33 ∧ m.cpu.i ≤ a ∧ a ≤ m.cpu.i + 2 ∨
        byte w = 0x55 ∧ m.cpu.i ≤ a ∧ a ≤ m.cpu.i + (x w).val)
  | .display => (group w).val = 0x0 ∧ (low w).val = 0x0 ∨ (group w).val = 0xD
  | .register r =>
      r = x w ∧ ((group w).val = 0x6 ∨ (group w).val = 0x7 ∨ (group w).val = 0xC ∨
        (group w).val = 0x8 ∧ ((low w).val ≤ 0x7 ∨ (low w).val = 0xE) ∨
        (group w).val = 0xF ∧ (byte w = 0x07 ∨ byte w = 0x0A)) ∨
      r ≤ x w ∧ (group w).val = 0xF ∧ byte w = 0x65 ∨
      r.val = 0xF ∧ ((group w).val = 0xD ∨
        (group w).val = 0x8 ∧ (0x4 ≤ (low w).val ∧ (low w).val ≤ 0x7 ∨ (low w).val = 0xE))
  | .index => (group w).val = 0xA ∨ (group w).val = 0xF ∧ (byte w = 0x1E ∨ byte w = 0x29)
  | .delay => (group w).val = 0xF ∧ byte w = 0x15
  | .sound => (group w).val = 0xF ∧ byte w = 0x18
  | .stackPointer => (group w).val = 0x2 ∨ (group w).val = 0x0 ∧ (low w).val = 0xE
  | .slot k => (group w).val = 0x2 ∧ (k.val : Int) = m.cpu.sp
  | .programCounter =>
      (group w).val = 0x0 ∧ (low w).val = 0xE ∨ (group w).val = 0x1 ∨ (group w).val = 0x2 ∨
      (group w).val = 0x3 ∨ (group w).val = 0x4 ∨ (group w).val = 0x5 ∨ (group w).val = 0x9 ∨
      (group w).val = 0xB ∨ (group w).val = 0xE ∧ (byte w = 0x9E ∨ byte w = 0xA1) ∨
      (group w).val = 0xF ∧ byte w = 0x0A
  | .random => (group w).val = 0xC
  | .keypad | .halted | .cycles => False

/-- The number of the flag register. -/
@[simp] theorem val_flag : (0xF : Register).val = 0xF := rfl

/-- Nothing changed but parts that a predicate allows. -/
def Within (E : Part → Prop) (m m' : Machine) : Prop := ∀ p, ¬ E p → p.Same m m'

section Within

variable {E : Part → Prop} {m m' m'' : Machine}

theorem Part.same_refl (p : Part) (m : Machine) : p.Same m m := by
  cases p <;> rfl

theorem Part.Same.trans {p : Part} (first : p.Same m m') (rest : p.Same m' m'') : p.Same m m'' := by
  cases p <;> exact Eq.trans rest first

theorem within_refl (m : Machine) : Within E m m := fun p _ => p.same_refl m

/-- If nothing but some parts changes twice in a row, nothing but these parts changes. -/
theorem Within.trans (first : Within E m m') (rest : Within E m' m'') : Within E m m'' :=
  fun p outside => (first p outside).trans (rest p outside)

/-! ### Changing one part -/

theorem within_setReg (m : Machine) {x : Register} (h : E (.register x)) (value : Int) :
    Within E m { m with cpu := m.cpu.setReg x value } := by
  intro p outside
  cases p with
  | register y =>
      have other : y ≠ x := by
        rintro rfl
        exact outside h
      exact (m.cpu.reg_setReg x y value).trans (if_neg other)
  | _ => rfl

/-- A register and then the flag are set. -/
theorem within_setFlag (m : Machine) {x : Register} (h : E (.register x)) (flag : E (.register 0xF))
    (value bit : Int) : Within E m { m with cpu := (m.cpu.setReg x value).setFlag bit } :=
  (within_setReg m h value).trans (within_setReg _ flag (bit % 256))

/-- Fields of the processor are set that hold what they held, or may change. -/
theorem within_fields (m : Machine) {i delay sound pc : Int} (index : i = m.cpu.i ∨ E .index)
    (timer : delay = m.cpu.delay ∨ E .delay) (tone : sound = m.cpu.sound ∨ E .sound)
    (counter : pc = m.cpu.pc ∨ E .programCounter) :
    Within E m
      { m with cpu := { m.cpu with i := i, delay := delay, sound := sound, pc := pc } } := by
  intro p outside
  cases p with
  | index => exact index.resolve_right outside
  | delay => exact timer.resolve_right outside
  | sound => exact tone.resolve_right outside
  | programCounter => exact counter.resolve_right outside
  | _ => rfl

theorem within_index (m : Machine) (h : E .index) (value : Int) :
    Within E m { m with cpu := { m.cpu with i := value } } :=
  within_fields m (.inr h) (.inl rfl) (.inl rfl) (.inl rfl)

theorem within_pc (m : Machine) (h : E .programCounter) (value : Int) :
    Within E m { m with cpu := { m.cpu with pc := value } } :=
  within_fields m (.inl rfl) (.inl rfl) (.inl rfl) (.inr h)

theorem within_skipIf (m : Machine) (h : E .programCounter) (p : Bool) :
    Within E m { m with cpu := m.cpu.skipIf p } := by
  cases p with
  | false => exact within_refl m
  | true => exact within_pc m h _

theorem within_display (m : Machine) (h : E .display) (display : Display) :
    Within E m { m with display := display } := by
  intro p outside
  cases p with
  | display => exact absurd h outside
  | _ => rfl

theorem within_random (m : Machine) (h : E .random) (random : RandomSource) :
    Within E m { m with random := random } := by
  intro p outside
  cases p with
  | random => exact absurd h outside
  | _ => rfl

/-- A bus that changes at locations alone that may change. -/
theorem within_bus (m : Machine) {bus : Bus}
    (h : ∀ l, ¬ E (.cell l) → bus.byteAt l = m.bus.byteAt l) :
    Within E m { m with bus := bus } := by
  intro p outside
  cases p with
  | cell l => exact h l outside
  | _ => rfl

theorem within_read (m : Machine) (a : Int) : Within E m (onBus (Bus.read a) m).2 :=
  within_bus m fun l _ => Bus.byteAt_read a m.bus l

/-- Writing values changes nothing but the cells that their addresses lead to. -/
theorem within_writeFrom (m : Machine) (a : Int) (values : List Int)
    (h : ∀ k < values.length, ∀ l, m.bus.location? (a + k) = some l → E (.cell l)) :
    Within E m (onBus (Bus.writeFrom a values) m).2 := by
  apply within_bus
  intro l outside
  apply Bus.byteAt_writeFrom_of_ne
  intro k inside here
  exact outside (h k inside l here)

/-! ### Calls and returns -/

theorem within_call (m : Machine) (nonneg : 0 ≤ m.cpu.sp) (t : Target) (pointer : E .stackPointer)
    (counter : E .programCounter) (slot : ∀ k : Fin 16, (k.val : Int) = m.cpu.sp → E (.slot k)) :
    Within E m { m with cpu := (Cpu.call t m.cpu).2 } := by
  by_cases full : stackDepth ≤ m.cpu.sp
  · rw [Cpu.call, if_pos full]
    exact within_refl m
  · have room : m.cpu.sp < 16 := by
      simp only [stackDepth] at full
      omega
    rw [Cpu.call_of_room nonneg room]
    intro p outside
    cases p with
    | slot k =>
        have other : m.cpu.sp.toNat ≠ k.val := by
          intro same
          exact outside (slot k (by omega))
        exact Vector.getElem_set_ne (by omega) k.isLt other
    | stackPointer => exact absurd pointer outside
    | programCounter => exact absurd counter outside
    | _ => rfl

theorem within_ret (m : Machine) (pointer : E .stackPointer) (counter : E .programCounter) :
    Within E m { m with cpu := (Cpu.ret m.cpu).2 } := by
  unfold Cpu.ret
  by_cases empty : m.cpu.sp = 0
  · rw [if_pos empty]
    exact within_refl m
  · rw [if_neg empty]
    simp only
    cases Cpu.slot? (m.cpu.sp - 1) with
    | none =>
        intro p outside
        cases p with
        | stackPointer => exact absurd pointer outside
        | _ => rfl
    | some k =>
        intro p outside
        cases p with
        | stackPointer => exact absurd pointer outside
        | programCounter => exact absurd counter outside
        | _ => rfl

/-! ### Transfers -/

theorem closed_within : Attempt.Closed fun {_} x => x.Leads (Within E) :=
  Attempt.closed_leads within_refl Within.trans

/-- Drawing changes nothing but the display and the flag. -/
theorem leads_drawSprite (display : E .display) (flag : E (.register 0xF)) (x y : Register)
    (rows : Nat) : (drawSprite x y rows).Leads (Within E) := by
  apply drawSprite_of_closed closed_within within_refl
  · intro a m
    exact within_read m a
  · intro x y bits m
    exact within_display m display _
  · intro hit m
    exact within_setReg m flag _

/-- Loading changes nothing but the registers that it loads. -/
theorem leads_loadRegisters (address : Int) (count k : Nat)
    (h : ∀ j < count, E (.register (Cpu.register (k + j)))) :
    (loadRegisters address count k).Leads (Within E) := by
  apply loadRegisters_of_closed closed_within
  · intro a m
    exact within_read m a
  · intro j inside byte m
    exact within_setReg m (h j inside) _

end Within

end Machine

namespace Instruction

open Machine Word

variable {m : Machine} {w : Int}

/-- Executing the instruction of a word changes only what the word touches. -/
theorem within_execute (nonneg : 0 ≤ m.cpu.sp) {i : Instruction} (encoded : i.Encodes w) :
    Within (m.Touches w) m (i.execute m).2 := by
  cases i with
  | clear => exact within_display m (by simp [Touches, encoded.1, encoded.2]) _
  | ret =>
      obtain ⟨g, l⟩ := encoded
      exact within_ret m (by simp [Touches, g, l]) (by simp [Touches, g, l])
  | call t =>
      obtain ⟨g, rfl⟩ := encoded
      exact within_call m nonneg _ (.inl g) (by simp [Touches, g]) fun k same => ⟨g, same⟩
  | jump t | jumpOffset t =>
      exact within_pc m (by simp [Touches, encoded.1]) _
  | skipIfByte r b | skipUnlessByte r b | skipIfEqual r s | skipUnlessEqual r s =>
      exact within_skipIf m (by simp [Touches, encoded.1]) _
  | skipIfKey r | skipUnlessKey r =>
      exact within_skipIf m (by simp [Touches, encoded.1, encoded.2.1]) _
  | loadByte r b | addByte r b =>
      obtain ⟨g, rfl, rfl⟩ := encoded
      exact within_setReg m (by simp [Touches, g]) _
  | copy r s | or r s | and r s | xor r s =>
      obtain ⟨g, l, rfl, rfl⟩ := encoded
      exact within_setReg m (by simp [Touches, g, l]) _
  | add r s | sub r s | subFrom r s =>
      obtain ⟨g, l, rfl, rfl⟩ := encoded
      exact within_setFlag m (by simp [Touches, g, l])
        (by simp [Touches, g, l]) _ _
  | shiftRight r | shiftLeft r =>
      obtain ⟨g, l, rfl⟩ := encoded
      exact within_setFlag m (by simp [Touches, g, l])
        (by simp [Touches, g, l]) _ _
  | loadIndex t => exact within_index m (by simp [Touches, encoded.1]) _
  | random r b =>
      obtain ⟨g, rfl, rfl⟩ := encoded
      -- Two changes one after the other: the source of random values, then the register.
      have drawn : Within (m.Touches w) m { m with random := m.random.draw.2 } :=
        within_random m g _
      exact drawn.trans (within_setReg _ (by simp [Touches, g]) _)
  | draw r s n =>
      exact leads_drawSprite (.inr encoded.1) (by simp [Touches, encoded.1]) r s n.val m
  | readDelay r =>
      obtain ⟨g, b, rfl⟩ := encoded
      exact within_setReg m (by simp [Touches, g, b]) _
  | awaitKey r =>
      obtain ⟨g, b, rfl⟩ := encoded
      rw [execute, awaitKey_apply]
      cases m.keypad.lowest? with
      | some k => exact within_setReg m (by simp [Touches, g, b]) _
      | none => exact within_pc m (by simp [Touches, g, b]) _
  | setDelay r =>
      exact within_fields m (.inl rfl) (.inr ⟨encoded.1, encoded.2.1⟩) (.inl rfl) (.inl rfl)
  | setSound r =>
      exact within_fields m (.inl rfl) (.inl rfl) (.inr ⟨encoded.1, encoded.2.1⟩) (.inl rfl)
  | addIndex r => exact within_index m (.inr ⟨encoded.1, .inl encoded.2.1⟩) _
  | loadGlyph r => exact within_index m (.inr ⟨encoded.1, .inr encoded.2.1⟩) _
  | storeDecimal r =>
      obtain ⟨g, b, rfl⟩ := encoded
      refine within_writeFrom m m.cpu.i (decimalDigits (m.cpu.reg (x w))) ?_
      intro k inside l here
      rw [length_decimalDigits] at inside
      exact ⟨m.cpu.i + k, here, g, .inl ⟨b, by omega, by omega⟩⟩
  | storeRegisters r =>
      obtain ⟨g, b, rfl⟩ := encoded
      refine within_writeFrom m m.cpu.i (m.cpu.v.toList.take ((x w).val + 1)) ?_
      intro k inside l here
      rw [length_registerBlock] at inside
      exact ⟨m.cpu.i + k, here, g, .inr ⟨b, by omega, by omega⟩⟩
  | loadRegisters r =>
      obtain ⟨g, b, rfl⟩ := encoded
      refine leads_loadRegisters m.cpu.i ((x w).val + 1) 0 ?_ m
      intro j inside
      have number : (Cpu.register (0 + j)).val = 0 + j := Cpu.val_register (by omega)
      have below : Cpu.register (0 + j) ≤ x w := by
        rw [Fin.le_def, number]
        omega
      exact .inr (.inl ⟨below, g, b⟩)

end Instruction

namespace Machine

open Word

variable {m : Machine} {w : Int}

/-- An operation changes only what its word touches. -/
theorem within_operation (nonneg : 0 ≤ m.cpu.sp) (w : Int) :
    Within (m.Touches w) m ((Operation.ofWord w).execute m).2 := by
  cases decoded : Instruction.decode? w with
  | some i =>
      rw [execute_ofWord decoded]
      exact Instruction.within_execute nonneg (Instruction.decode?_eq_some_iff.mp decoded)
  | none =>
      intro p _
      simp only [Operation.execute, Operation.ofWord, decoded]
      cases p <;> rfl

/-! ### Steps -/

/-- What a step changes is one of its marks or touched by the word that it fetched. -/
theorem within_step (nonneg : 0 ≤ m.cpu.sp) :
    Within (fun p => p.isMark = true ∨ ∃ w, m.Fetches w ∧ m.Touches w p) m (step m).2 := by
  intro p outside
  have noMark : p.isMark ≠ true := by
    intro mark
    exact outside (.inl mark)
  -- Without a word nothing but the marks can change. With one, the operation starts from the machine
  -- that the fetch left, in which the word touches what it touches in the machine before the step.
  by_cases fetches : ∃ w, m.Fetches w
  · obtain ⟨w, running, word⟩ := fetches
    obtain ⟨halted, cycles, log, moved⟩ := step_effect_of_word running word
    have untouched : ¬ (m.dropLog.fetched w).Touches w p := by
      intro touched
      refine outside (.inr ⟨w, ⟨running, word⟩, ?_⟩)
      cases p <;> exact touched
    have executed := within_operation (m := m.dropLog.fetched w) nonneg w p untouched
    rw [moved]
    cases p <;> first | exact executed | exact absurd rfl noMark
  · obtain ⟨halted, log, still⟩ := step_effect_of_no_word (m := m) fun w running word =>
      fetches ⟨w, running, word⟩
    rw [still]
    cases p <;> first | rfl | exact absurd rfl noMark

/-- A step touches only what its word touches: every part that differs after it, whether it
succeeded or failed, is one of its marks or among `Touches`. Where regions lead to different
memories, an address that holds another byte is one that the word stores to. A random value is drawn
by group C alone, and then one. -/
theorem step_changes_only_touched (rams : m.bus.OfRams) (distinct : m.bus.Distinct)
    (nonneg : 0 ≤ m.cpu.sp) (fetches : m.Fetches w) :
    (∀ p : Part, ¬ p.Same m (step m).2 → p.isMark = true ∨ m.Touches w p) ∧
      (∀ a, (step m).2.bus.peek? a ≠ m.bus.peek? a → (group w).val = 0xF ∧
        (byte w = 0x33 ∧ m.cpu.i ≤ a ∧ a ≤ m.cpu.i + 2 ∨
          byte w = 0x55 ∧ m.cpu.i ≤ a ∧ a ≤ m.cpu.i + (x w).val)) ∧
      (step m).2.random = if (group w).val = 0xC then m.random.draw.2 else m.random := by
  -- `within_step` names every word that may be at the program counter; there is only one.
  have touched (p : Part) (changed : ¬ p.Same m (step m).2) :
      p.isMark = true ∨ m.Touches w p := by
    by_contra outside
    refine changed (within_step nonneg p ?_)
    rintro (mark | ⟨w', fetches', touches⟩)
    · exact outside (.inl mark)
    · have same : w' = w := Except.ok.inj (fetches'.word.symm.trans fetches.word)
      exact outside (.inr (same ▸ touches))
  refine ⟨touched, ?_, ?_⟩
  · intro a changed
    have shape := (records_stepLog rams.backed).shape
    have regions : (step m).2.bus.location? a = m.bus.location? a :=
      Bus.location?_congr (Bus.regions_of_shape shape) a
    rw [Bus.peek?_eq rams.backed, Bus.peek?_eq (rams.backed.of_shape shape), regions] at changed
    -- The byte moved, so its cell did; and no other address leads to that cell.
    cases here : m.bus.location? a with
    | none =>
        rw [here] at changed
        exact absurd rfl changed
    | some l =>
        rw [here] at changed
        have moved : ¬ (Part.cell l).Same m (step m).2 := by
          intro same
          exact changed (congrArg Except.ok same)
        rcases touched (.cell l) moved with mark | ⟨a', there, stores⟩
        · cases mark
        · obtain rfl := distinct.separate a a' l here there
          exact stores
  · by_cases random : (group w).val = 0xC
    · have encoded : (Instruction.random (x w) (byte w)).Encodes w := ⟨random, rfl, rfl⟩
      obtain ⟨halted, cycles, log, moved⟩ := step_effect_of_word fetches.running fetches.word
      rw [moved, execute_ofWord (Instruction.decode?_eq_some_iff.mpr encoded), if_pos random]
      rfl
    · rw [if_neg random]
      by_contra changed
      rcases touched .random changed with mark | drawn
      · cases mark
      · exact random drawn

/-- A machine about to store two registers from the last address of its memory on. -/
def storingPastEnd : Machine :=
  { ofImage [0xF1, 0x55] (by decide) with cpu := { Cpu.initial 0 with i := 1 } }

/-- A store that fails behind the end of memory has changed no address but those it was meant for,
and no register. -/
theorem storingPastEnd_changes_last_address :
    (step storingPastEnd).1 = .error (.unmapped 2) ∧
      storingPastEnd.bus.peek? 1 = .ok 0x55 ∧ (step storingPastEnd).2.bus.peek? 1 = .ok 0 ∧
      (∀ a, (step storingPastEnd).2.bus.peek? a ≠ storingPastEnd.bus.peek? a → 1 ≤ a ∧ a ≤ 2) ∧
      ∀ x, (step storingPastEnd).2.cpu.reg x = storingPastEnd.cpu.reg x := by
  have rams : storingPastEnd.bus.OfRams := ofRams_ofImage [0xF1, 0x55] (by decide)
  have distinct : storingPastEnd.bus.Distinct := by
    simp [Bus.Distinct, storingPastEnd, ofImage, create, Bus.single]
  have fetches : storingPastEnd.Fetches 0xF155 := ⟨rfl, rfl⟩
  obtain ⟨parts, memory, _⟩ := step_changes_only_touched rams distinct (by decide) fetches
  refine ⟨rfl, rfl, rfl, ?_, ?_⟩
  · intro a changed
    rcases memory a changed with ⟨_, ⟨decimal, _⟩ | ⟨_, low, high⟩⟩
    · exact absurd decimal (by decide)
    · exact ⟨low, high⟩
  · intro x
    by_contra changed
    rcases parts (.register x) changed with mark | touched
    · cases mark
    · have untouched : ∀ x, ¬ storingPastEnd.Touches 0xF155 (.register x) := by
        unfold Touches
        decide
      exact untouched x touched

end Machine

end Chip8
