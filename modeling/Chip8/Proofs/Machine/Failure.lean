import Chip8.Proofs.Instruction.Decode
import Chip8.Proofs.Machine.Step

/-!
Exactly when a step fails, and with what kind of fault (`step_fails_iff`).

`Fails` lists the causes. Besides a halted processor and an empty or full stack they are all
addresses that no region covers: on a bus of memories an offset never falls outside its memory, and
every value that an instruction writes is a byte, so no other kind of fault can arise.
-/

namespace Chip8

namespace Bus

variable {b : Bus} {n : Nat} {a : Int}

/-- An access to consecutive addresses fails exactly if one of them is not mapped. -/
theorem exists_transferFault?_iff :
    (∃ e, b.transferFault? n a = some e) ↔ ∃ k < n, ¬ b.Maps (a + k) := by
  rw [← Option.ne_none_iff_exists', ne_eq, transferFault?_eq_none_iff]
  simp only [Classical.not_forall, exists_prop]

theorem kind_of_transferFault? {e : Fault} (h : b.transferFault? n a = some e) :
    e.kind = .memoryAccess := by
  rw [transferFault?_eq_some h]
  rfl

end Bus

namespace Machine

open Word

/-- A running processor whose program counter points at a word. -/
structure Fetches (m : Machine) (w : Int) : Prop where
  running : m.cpu.halted = false
  word : m.bus.wordAt? m.cpu.pc = .ok w

/-- One of the `n` addresses from the index register on is not mapped. -/
def Misses (m : Machine) (n : Nat) : Prop := ∃ k < n, ¬ m.bus.Maps (m.cpu.i + k)

/-- The causes for which a step fails, each with the kind of its fault. -/
inductive Fails (m : Machine) : Fault.Kind → Prop where
  | halted : m.cpu.halted = true → Fails m .halt
  | fetch : m.cpu.halted = false → ¬ (m.bus.Maps m.cpu.pc ∧ m.bus.Maps (m.cpu.pc + 1)) →
      Fails m .memoryAccess
  | ret {w : Int} : m.Fetches w → group w = 0x0 → low w = 0xE → m.cpu.sp = 0 →
      Fails m .stackUnderflow
  | call {w : Int} : m.Fetches w → group w = 0x2 → m.cpu.sp = 16 → Fails m .stackOverflow
  | storeDecimal {w : Int} : m.Fetches w → group w = 0xF → byte w = 0x33 → m.Misses 3 →
      Fails m .memoryAccess
  | registers {w : Int} : m.Fetches w → group w = 0xF → byte w = 0x55 ∨ byte w = 0x65 →
      m.Misses ((x w).val + 1) → Fails m .memoryAccess
  | draw {w : Int} : m.Fetches w → group w = 0xD → m.Misses (low w).val → Fails m .memoryAccess

variable {m : Machine}

/-- A step fails in one of four ways. -/
theorem Fails.kind_eq {k : Fault.Kind} (h : m.Fails k) :
    k = .halt ∨ k = .memoryAccess ∨ k = .stackUnderflow ∨ k = .stackOverflow := by
  cases h <;> simp

/-- The fetch moves no region, so the addresses missed before and after it are the same. -/
theorem misses_iff {w : Int} {n : Nat} :
    m.Misses n ↔ ∃ e, (m.dropLog.fetched w).bus.transferFault? n m.cpu.i = some e := by
  rw [Bus.transferFault?_congr (regions_fetched m w)]
  exact Bus.exists_transferFault?_iff.symm

/-- A fault of the instruction that was fetched is one of the causes. -/
theorem Fetches.fails {w : Int} (h : m.Fetches w) {i : Instruction} (encoded : i.Encodes w)
    {e : Fault} (fault : i.fault? (m.dropLog.fetched w) = some e) : m.Fails e.kind := by
  have misses {n : Nat} (transfer : (m.dropLog.fetched w).bus.transferFault? n m.cpu.i = some e) :
      m.Misses n :=
    misses_iff.mpr ⟨e, transfer⟩
  cases i with
  | ret =>
      rw [Instruction.fault?, Option.ite_none_right_eq_some, Option.some.injEq] at fault
      obtain ⟨empty, rfl⟩ := fault
      exact .ret h (Fin.ext encoded.1) (Fin.ext encoded.2) empty
  | call t =>
      rw [Instruction.fault?, Option.ite_none_right_eq_some, Option.some.injEq] at fault
      obtain ⟨full, rfl⟩ := fault
      exact .call h (Fin.ext encoded.1) full
  | draw r s n =>
      obtain ⟨group, _, _, rfl⟩ := encoded
      rw [Bus.kind_of_transferFault? fault]
      exact .draw h (Fin.ext group) (misses fault)
  | storeDecimal r =>
      rw [Bus.kind_of_transferFault? fault]
      exact .storeDecimal h (Fin.ext encoded.1) encoded.2.1 (misses fault)
  | storeRegisters r =>
      obtain ⟨group, byte, rfl⟩ := encoded
      rw [Bus.kind_of_transferFault? fault]
      exact .registers h (Fin.ext group) (.inl byte) (misses fault)
  | loadRegisters r =>
      obtain ⟨group, byte, rfl⟩ := encoded
      rw [Bus.kind_of_transferFault? fault]
      exact .registers h (Fin.ext group) (.inr byte) (misses fault)
  | _ => cases fault

/-- An instruction that ends in a fault makes the step that fetched it fail. -/
theorem Fetches.step_fails {w : Int} (h : m.Fetches w) (hb : m.bus.Backed) (hc : m.cpu.Regular)
    {i : Instruction} (encoded : i.Encodes w) {e : Fault}
    (fault : i.fault? (m.dropLog.fetched w) = some e) :
    ∃ m', step m = (.error e, m') :=
  ⟨_, step_of_fault hb hc h.running h.word (Instruction.decode?_eq_some_iff.mpr encoded) fault⟩

/-- A step that fails has one of the causes. -/
theorem fails_of_step (hb : m.bus.Backed) (hc : m.cpu.Regular) {e : Fault} {m' : Machine}
    (h : step m = (.error e, m')) : m.Fails e.kind := by
  rcases step_failure_cases hb hc h with
    ⟨halted, rfl, _⟩ | ⟨running, word, _⟩ | ⟨running, w, i, word, decoded, fault, _⟩
  · exact .halted halted
  · rw [Bus.kind_of_wordAt?_error hb.fitted word]
    refine .fetch running fun mapped => ?_
    obtain ⟨w, found⟩ := (Bus.exists_wordAt?_iff hb).mpr mapped
    rw [word] at found
    cases found
  · exact Fetches.fails ⟨running, word⟩ (Instruction.decode?_eq_some_iff.mp decoded) fault

/-- Each cause makes the step fail. -/
theorem Fails.step (hb : m.bus.Backed) (hc : m.cpu.Regular) {k : Fault.Kind} (h : m.Fails k) :
    ∃ e m', Machine.step m = (.error e, m') ∧ e.kind = k := by
  -- The instructions that access a block fail in the same way: one of its addresses is missed.
  have transfer {w : Int} {n : Nat} (fetches : m.Fetches w) {i : Instruction}
      (encoded : i.Encodes w) (misses : m.Misses n)
      (accesses : i.fault? (m.dropLog.fetched w) =
        (m.dropLog.fetched w).bus.transferFault? n m.cpu.i) :
      ∃ e m', Machine.step m = (.error e, m') ∧ e.kind = .memoryAccess := by
    obtain ⟨e, fault⟩ := misses_iff.mp misses
    obtain ⟨m', failing⟩ := fetches.step_fails hb hc encoded (accesses.trans fault)
    exact ⟨e, m', failing, Bus.kind_of_transferFault? fault⟩
  cases h with
  | halted halted => exact ⟨_, _, step_of_halted halted, rfl⟩
  | fetch running unmapped =>
      cases word : m.bus.wordAt? m.cpu.pc with
      | ok w => exact absurd ((Bus.exists_wordAt?_iff hb).mp ⟨w, word⟩) unmapped
      | error e =>
          exact ⟨e, _, step_of_fetch_fault running word, Bus.kind_of_wordAt?_error hb.fitted word⟩
  | ret fetches group low empty =>
      have encoded : Instruction.ret.Encodes _ := ⟨congrArg Fin.val group, congrArg Fin.val low⟩
      obtain ⟨m', failing⟩ := fetches.step_fails hb hc encoded (if_pos empty)
      exact ⟨_, m', failing, rfl⟩
  | call fetches group full =>
      have encoded : (Instruction.call (target _)).Encodes _ := ⟨congrArg Fin.val group, rfl⟩
      obtain ⟨m', failing⟩ := fetches.step_fails hb hc encoded (if_pos full)
      exact ⟨_, m', failing, rfl⟩
  | storeDecimal fetches group byte misses =>
      have encoded : (Instruction.storeDecimal (x _)).Encodes _ :=
        ⟨congrArg Fin.val group, byte, rfl⟩
      exact transfer fetches encoded misses rfl
  | registers fetches group byte misses =>
      rcases byte with store | load
      · have encoded : (Instruction.storeRegisters (x _)).Encodes _ :=
          ⟨congrArg Fin.val group, store, rfl⟩
        exact transfer fetches encoded misses rfl
      · have encoded : (Instruction.loadRegisters (x _)).Encodes _ :=
          ⟨congrArg Fin.val group, load, rfl⟩
        exact transfer fetches encoded misses rfl
  | draw fetches group misses =>
      have encoded : (Instruction.draw (x _) (y _) (low _)).Encodes _ :=
        ⟨congrArg Fin.val group, rfl, rfl, rfl⟩
      exact transfer fetches encoded misses rfl

/-- On a bus of memories a step fails with a fault of some kind exactly for one of the causes of
that kind, and so never with a fault of another kind. -/
theorem step_fails_iff (rams : m.bus.OfRams) (hc : m.cpu.Regular) :
    (∀ k, (∃ e m', Machine.step m = (.error e, m') ∧ e.kind = k) ↔ m.Fails k) ∧
      ∀ e m', Machine.step m = (.error e, m') →
        e.kind = .halt ∨ e.kind = .memoryAccess ∨ e.kind = .stackUnderflow ∨
          e.kind = .stackOverflow := by
  have hb := rams.backed
  refine ⟨fun k => ⟨?_, fun h => h.step hb hc⟩, fun e m' failing => ?_⟩
  · rintro ⟨e, m', failing, rfl⟩
    exact fails_of_step hb hc failing
  · exact (fails_of_step hb hc failing).kind_eq

/-- A machine at its start whose memory is an image, with a screen of eight pixels. -/
def ofImage (image : List UInt8) (nonempty : 0 < image.length) : Machine :=
  create (Bus.single ⟨image.toArray, by simpa using nonempty, false⟩)
    ⟨8, 1, Cells.zero 8, by decide, by decide, rfl⟩ (.ofList []) 0 0

theorem ofRams_ofImage (image : List UInt8) (nonempty : 0 < image.length) :
    (ofImage image nonempty).bus.OfRams :=
  Bus.ofRams_single _

theorem regular_ofImage (image : List UInt8) (nonempty : 0 < image.length) :
    (ofImage image nonempty).cpu.Regular :=
  (Cpu.bounded_initial 0).toRegular

/-- A return at the start fails for the empty stack. -/
theorem return_fails_at_start : ∃ e m',
    Machine.step (ofImage [0x00, 0xEE] (by decide)) = (.error e, m') ∧
      e.kind = .stackUnderflow := by
  have fetches : (ofImage [0x00, 0xEE] (by decide)).Fetches 0x00EE := ⟨rfl, rfl⟩
  exact ((step_fails_iff (ofRams_ofImage [0x00, 0xEE] (by decide))
    (regular_ofImage [0x00, 0xEE] (by decide))).1 .stackUnderflow).mpr (.ret fetches rfl rfl rfl)

end Machine

end Chip8
