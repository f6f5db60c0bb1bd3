import Chip8.Machine.Step
import Chip8.Proofs.Machine.Execute
import Chip8.Proofs.Memory.Device

/-!
Steps as fetching and executing.

A step of a running processor depends on the word at the program counter: where it cannot be read
the step fails (`step_of_fetch_fault`), otherwise it executes the operation of the word on the
machine as the fetch leaves it (`step_of_word`). `step_effect` sums up what a step can leave, and
`step_failure_cases` how it can fail.
-/

namespace Chip8

namespace Bus

/-- The word at an address and the next, the upper byte first, looked at without a trace. -/
def wordAt? (b : Bus) (a : Int) : Except Fault Int := do
  let high ← b.peek? a
  let low ← b.peek? (a + 1)
  return high.toNat * 256 + low.toNat

variable {b : Bus} {a : Int}

theorem wordAt?_of_bytes {high low : UInt8} (first : b.peek? a = .ok high)
    (second : b.peek? (a + 1) = .ok low) : b.wordAt? a = .ok (high.toNat * 256 + low.toNat) := by
  simp only [wordAt?, first, second]
  rfl

theorem wordAt?_of_error {e : Fault} (first : b.peek? a = .error e) : b.wordAt? a = .error e := by
  simp only [wordAt?, first]
  rfl

theorem wordAt?_of_second_error {high : UInt8} {e : Fault} (first : b.peek? a = .ok high)
    (second : b.peek? (a + 1) = .error e) : b.wordAt? a = .error e := by
  simp only [wordAt?, first, second]
  rfl

/-- A word that was read is one byte above another. -/
theorem bytes_of_wordAt? {w : Int} (h : b.wordAt? a = .ok w) : ∃ high low : UInt8,
    b.peek? a = .ok high ∧ b.peek? (a + 1) = .ok low ∧ w = high.toNat * 256 + low.toNat := by
  cases first : b.peek? a with
  | error e =>
      rw [wordAt?_of_error first] at h
      cases h
  | ok high =>
      cases second : b.peek? (a + 1) with
      | error e =>
          rw [wordAt?_of_second_error first second] at h
          cases h
      | ok low =>
          rw [wordAt?_of_bytes first second, Except.ok.injEq] at h
          exact ⟨high, low, rfl, rfl, h.symm⟩

theorem isWord_of_wordAt? {w : Int} (h : b.wordAt? a = .ok w) : IsWord w := by
  obtain ⟨high, low, _, _, rfl⟩ := bytes_of_wordAt? h
  have := high.toNat_lt
  have := low.toNat_lt
  constructor <;> omega

/-- On a backed bus a word can be read exactly when both of its addresses are covered. -/
theorem exists_wordAt?_iff (hb : b.Backed) :
    (∃ w, b.wordAt? a = .ok w) ↔ b.Maps a ∧ b.Maps (a + 1) := by
  constructor
  · rintro ⟨w, h⟩
    obtain ⟨high, low, first, second, _⟩ := bytes_of_wordAt? h
    exact ⟨maps_of_peek? first, maps_of_peek? second⟩
  · rintro ⟨first, second⟩
    obtain ⟨l, hl⟩ := maps_iff.mp first
    obtain ⟨l', hl'⟩ := maps_iff.mp second
    exact ⟨_, wordAt?_of_bytes (peek?_of_location hb hl) (peek?_of_location hb hl')⟩

/-- A word cannot be read where one of its bytes cannot. -/
theorem wordAt?_error_cases {e : Fault} (h : b.wordAt? a = .error e) :
    b.peek? a = .error e ∨ b.peek? (a + 1) = .error e := by
  cases first : b.peek? a with
  | error e' =>
      rw [wordAt?_of_error first, Except.error.injEq] at h
      exact .inl (congrArg Except.error h)
  | ok high =>
      cases second : b.peek? (a + 1) with
      | error e' =>
          rw [wordAt?_of_second_error first second, Except.error.injEq] at h
          exact .inr (congrArg Except.error h)
      | ok low =>
          rw [wordAt?_of_bytes first second] at h
          cases h

/-- The reads that reading a word makes with success: none, that of the upper byte, or both. -/
def wordReads (b : Bus) (a : Int) : List Access :=
  match b.peek? a with
  | .error _ => []
  | .ok high =>
    match b.peek? (a + 1) with
    | .error _ => [⟨.read, a, high.toNat⟩]
    | .ok low => [⟨.read, a, high.toNat⟩, ⟨.read, a + 1, low.toNat⟩]

/-- Reading a word reads both of its bytes, the upper one first. -/
theorem wordReads_of_wordAt? {w : Int} (h : b.wordAt? a = .ok w) :
    b.wordReads a = [⟨.read, a, w / 256⟩, ⟨.read, a + 1, w % 256⟩] := by
  obtain ⟨high, low, first, second, rfl⟩ := bytes_of_wordAt? h
  have := low.toNat_lt
  have upper : ((high.toNat : Int) * 256 + low.toNat) / 256 = high.toNat := by omega
  have lower : ((high.toNat : Int) * 256 + low.toNat) % 256 = low.toNat := by omega
  simp only [wordReads, first, second, upper, lower]

/-- On a fitted bus reading a word fails only where an address is not covered. -/
theorem kind_of_wordAt?_error (fitted : b.Fitted) {e : Fault} (h : b.wordAt? a = .error e) :
    e.kind = .memoryAccess := by
  rcases wordAt?_error_cases h with first | second
  · rw [fitted.peek_fault first]
    rfl
  · rw [fitted.peek_fault second]
    rfl

/-- Failing to read a word from a fitted bus stops the processor. -/
theorem halts_of_wordAt?_error (fitted : b.Fitted) {e : Fault} (h : b.wordAt? a = .error e) :
    e.halts = true := by
  rw [Fault.halts, kind_of_wordAt?_error fitted h]
  rfl

@[simp] theorem wordAt?_note (b : Bus) (xs : List Access) (a : Int) :
    (b.note xs).wordAt? a = b.wordAt? a := rfl

end Bus

namespace Machine

variable {m : Machine}

/-! ### Fetching -/

def fetched (m : Machine) (w : Int) : Machine :=
  { m with
    cpu := { m.cpu with word := w, pc := (m.cpu.pc + 2) % 65536 }
    bus := m.bus.note [⟨.read, m.cpu.pc, w / 256⟩, ⟨.read, m.cpu.pc + 1, w % 256⟩] }

theorem regions_fetched (m : Machine) (w : Int) :
    (m.dropLog.fetched w).bus.regions = m.bus.regions := rfl

theorem devices_fetched (m : Machine) (w : Int) :
    (m.dropLog.fetched w).bus.devices = m.bus.devices := rfl

/-- Fetching reads the word at the program counter and moves on behind it. -/
theorem fetch_of_word {w : Int} (h : m.bus.wordAt? m.cpu.pc = .ok w) :
    fetch m = (.ok w, m.fetched w) := by
  obtain ⟨high, low, first, second, rfl⟩ := Bus.bytes_of_wordAt? h
  have := low.toNat_lt
  have upper : ((high.toNat : Int) * 256 + low.toNat) / 256 = high.toNat := by omega
  have lower : ((high.toNat : Int) * 256 + low.toNat) % 256 = low.toNat := by omega
  simp [fetch, Bus.read, first, second, Bus.record_eq_note, fetched, upper, lower]

/-- A fetch that fails has read what it could of the word. -/
theorem fetch_of_fault {e : Fault} (h : m.bus.wordAt? m.cpu.pc = .error e) :
    fetch m = (.error e, { m with bus := m.bus.note (m.bus.wordReads m.cpu.pc) }) := by
  cases first : m.bus.peek? m.cpu.pc with
  | error e' =>
      rw [Bus.wordAt?_of_error first, Except.error.injEq] at h
      simp [fetch, Bus.read, first, h, Bus.wordReads]
  | ok high =>
      cases second : m.bus.peek? (m.cpu.pc + 1) with
      | error e' =>
          rw [Bus.wordAt?_of_second_error first second, Except.error.injEq] at h
          simp [fetch, Bus.read, first, second, Bus.record_eq_note, h, Bus.wordReads]
      | ok low =>
          rw [Bus.wordAt?_of_bytes first second] at h
          cases h

/-! ### One step -/

/-- A halted processor refuses to step, and the log is emptied all the same. -/
theorem step_of_halted (h : m.cpu.halted = true) :
    step m = (.error (.halted m.cpu.pc), m.dropLog) := by
  simp [step, dropLog, h]

/-- A step that fails to fetch leaves what the fetch read in the log. -/
theorem step_of_fetch_fault (running : m.cpu.halted = false) {e : Fault}
    (h : m.bus.wordAt? m.cpu.pc = .error e) :
    step m = (.error e,
      if e.halts then { m with bus := m.bus.dropLog.note (m.bus.wordReads m.cpu.pc) }.halt
      else { m with bus := m.bus.dropLog.note (m.bus.wordReads m.cpu.pc) }) := by
  have running' : m.dropLog.cpu.halted = false := running
  have fetching := fetch_of_fault (m := m.dropLog) (e := e) h
  simp only [step, running', fetchAndExecute, Attempt.bind_apply, fetching]
  rfl

/-- A running processor executes the operation of the word that it fetched. -/
theorem step_of_word (running : m.cpu.halted = false) {w : Int}
    (h : m.bus.wordAt? m.cpu.pc = .ok w) :
    step m =
      match (Operation.ofWord w).execute (m.dropLog.fetched w) with
      | (.ok _, m') => complete m.cpu.pc (Operation.ofWord w) m'
      | (.error e, m') => (.error e, if e.halts then m'.halt else m') := by
  have fetching : fetch m.dropLog = (.ok w, m.dropLog.fetched w) := fetch_of_word h
  have running' : m.dropLog.cpu.halted = false := running
  simp only [step, running', fetchAndExecute, Attempt.bind_apply, fetching]
  cases executed : (Operation.ofWord w).execute (m.dropLog.fetched w) with
  | mk result m' =>
      cases result with
      | ok _ => rfl
      | error e => rfl

/-- The machine with other values where a step leaves its marks beside the effect of the
instruction: whether the processor is halted, the count of cycles and the log. -/
def marked (m : Machine) (halted : Bool) (cycles : Nat) (log : Array Access) : Machine :=
  { m with
    cpu := { m.cpu with halted := halted }
    cycles := cycles
    bus := { m.bus with log := log } }

/-- A step that fetched a word leaves the machine as executing the operation of the word leaves it,
apart from its marks. -/
theorem step_effect_of_word (running : m.cpu.halted = false) {w : Int}
    (word : m.bus.wordAt? m.cpu.pc = .ok w) : ∃ halted cycles log,
    (step m).2 = ((Operation.ofWord w).execute (m.dropLog.fetched w)).2.marked halted cycles log := by
  rw [step_of_word running word]
  cases executed : (Operation.ofWord w).execute (m.dropLog.fetched w) with
  | mk result m' =>
      cases result with
      | ok _ => exact ⟨m'.cpu.halted, m'.cycles + (Operation.ofWord w).cycles, #[], rfl⟩
      | error e =>
          refine ⟨if e.halts then true else m'.cpu.halted, m'.cycles, m'.bus.log, ?_⟩
          simp only
          cases e.halts <;> rfl

/-- A step that fetched no word leaves the machine as it was, apart from its marks. -/
theorem step_effect_of_no_word (h : ∀ w, m.cpu.halted = false → m.bus.wordAt? m.cpu.pc ≠ .ok w) :
    ∃ halted log, (step m).2 = m.marked halted m.cycles log := by
  cases running : m.cpu.halted with
  | true =>
      refine ⟨m.cpu.halted, #[], ?_⟩
      rw [step_of_halted running]
      rfl
  | false =>
      cases word : m.bus.wordAt? m.cpu.pc with
      | ok w => exact absurd word (h w running)
      | error e =>
          refine ⟨if e.halts then true else m.cpu.halted,
            (m.bus.dropLog.note (m.bus.wordReads m.cpu.pc)).log, ?_⟩
          rw [step_of_fetch_fault running word]
          cases e.halts <;> rfl

/-- Apart from its marks a step leaves the machine as it was, or as executing the operation of the
word at the program counter leaves it. -/
theorem step_effect (m : Machine) : ∃ halted cycles log,
    (step m).2 = m.marked halted cycles log ∨
      ∃ w, m.bus.wordAt? m.cpu.pc = .ok w ∧
        (step m).2 =
          ((Operation.ofWord w).execute (m.dropLog.fetched w)).2.marked halted cycles log := by
  by_cases fetches : ∃ w, m.cpu.halted = false ∧ m.bus.wordAt? m.cpu.pc = .ok w
  · obtain ⟨w, running, word⟩ := fetches
    obtain ⟨halted, cycles, log, moved⟩ := step_effect_of_word running word
    exact ⟨halted, cycles, log, .inr ⟨w, word, moved⟩⟩
  · obtain ⟨halted, log, still⟩ := step_effect_of_no_word (m := m) fun w running word =>
      fetches ⟨w, running, word⟩
    exact ⟨halted, m.cycles, log, .inl still⟩

/-- What neither a fetch, the marks of a step nor a report changes, a step keeps if the instruction
that it fetched keeps it. -/
theorem step_keeps {α : Type} (f : Machine → α)
    (fetched : ∀ w, f (m.dropLog.fetched w) = f m)
    (marked : ∀ m halted cycles log, f (marked m halted cycles log) = f m)
    (reported : ∀ (m : Machine) reports, f { m with reports := reports } = f m)
    (executed : ∀ w i, m.cpu.halted = false → m.bus.wordAt? m.cpu.pc = .ok w →
      Instruction.decode? w = some i →
      f (i.execute (m.dropLog.fetched w)).2 = f (m.dropLog.fetched w)) :
    f (step m).2 = f m := by
  by_cases fetches : ∃ w, m.cpu.halted = false ∧ m.bus.wordAt? m.cpu.pc = .ok w
  · obtain ⟨w, running, word⟩ := fetches
    obtain ⟨halted, cycles, log, moved⟩ := step_effect_of_word running word
    rw [moved, marked]
    unfold Operation.execute
    cases decoded : (Operation.ofWord w).instruction? with
    | some i => exact (executed w i running word decoded).trans (fetched w)
    | none => exact (reported _ _).trans (fetched w)
  · obtain ⟨halted, log, still⟩ := step_effect_of_no_word (m := m) fun w running word =>
      fetches ⟨w, running, word⟩
    rw [still, marked]

/-! ### Failing steps -/

def instruction? (m : Machine) : Option Instruction :=
  match m.bus.wordAt? m.cpu.pc with
  | .ok w => Instruction.decode? w
  | .error _ => none

theorem instruction?_of_word {w : Int} (h : m.bus.wordAt? m.cpu.pc = .ok w) :
    m.instruction? = Instruction.decode? w := by
  rw [instruction?, h]

end Machine

namespace Instruction

open Machine

variable {m : Machine}

/-- Every fault of an instruction stops the processor. -/
theorem halts_of_fault? {i : Instruction} {e : Fault} (h : i.fault? m = some e) :
    e.halts = true := by
  have transfer {n : Nat} (fault : m.bus.transferFault? n m.cpu.i = some e) : e.halts = true := by
    rw [Bus.transferFault?_eq_some fault]
    rfl
  cases i with
  | ret =>
      rw [fault?, Option.ite_none_right_eq_some, Option.some.injEq] at h
      obtain ⟨_, rfl⟩ := h
      rfl
  | call t =>
      rw [fault?, Option.ite_none_right_eq_some, Option.some.injEq] at h
      obtain ⟨_, rfl⟩ := h
      rfl
  | draw x y rows => exact transfer h
  | storeDecimal x => exact transfer h
  | storeRegisters x => exact transfer h
  | loadRegisters x => exact transfer h
  | _ => cases h

end Instruction

namespace Machine

variable {m : Machine}

theorem execute_ofWord {w : Int} {i : Instruction} (decoded : Instruction.decode? w = some i) :
    (Operation.ofWord w).execute = i.execute := by
  simp only [Operation.execute, Operation.ofWord, decoded]

section Decoded

variable {w : Int} {i : Instruction} (hb : m.bus.Backed) (hc : m.cpu.Regular)
  (running : m.cpu.halted = false) (word : m.bus.wordAt? m.cpu.pc = .ok w)
  (decoded : Instruction.decode? w = some i)

include hb hc running word decoded

/-- A step fails with the fault of the instruction that it fetched. -/
theorem step_of_fault {e : Fault} (fault : i.fault? (m.dropLog.fetched w) = some e) :
    step m = (.error e, (i.leftover (m.dropLog.fetched w)).halt) := by
  have hc' : (m.dropLog.fetched w).cpu.Regular := { hc with }
  have executed := Instruction.execute_of_fault (m := m.dropLog.fetched w) hb hc' fault
  rw [step_of_word running word, execute_ofWord decoded, executed]
  simp only [Instruction.halts_of_fault? fault, if_true]

/-- A step that fetched an instruction without a fault executes it and completes. -/
theorem step_of_safe (safe : i.fault? (m.dropLog.fetched w) = none) :
    step m = complete m.cpu.pc (Operation.ofWord w) (i.execute (m.dropLog.fetched w)).2 := by
  have hc' : (m.dropLog.fetched w).cpu.Regular := { hc with }
  have result := Instruction.execute_fst (m := m.dropLog.fetched w) hb hc' i
  rw [safe, answer_none] at result
  rw [step_of_word running word, execute_ofWord decoded]
  cases executed : i.execute (m.dropLog.fetched w) with
  | mk answered m' =>
      rw [executed] at result
      cases result
      rfl

end Decoded

/-- The ways in which a step fails, and what each leaves. -/
theorem step_failure_cases (hb : m.bus.Backed) (hc : m.cpu.Regular) {e : Fault} {m' : Machine}
    (h : step m = (.error e, m')) :
    (m.cpu.halted = true ∧ e = .halted m.cpu.pc ∧ m' = m.dropLog) ∨
      (m.cpu.halted = false ∧ m.bus.wordAt? m.cpu.pc = .error e ∧
        ∃ xs, m' = { m with bus := m.bus.dropLog.note xs }.halt) ∨
      (m.cpu.halted = false ∧ ∃ w i, m.bus.wordAt? m.cpu.pc = .ok w ∧
        Instruction.decode? w = some i ∧ i.fault? (m.dropLog.fetched w) = some e ∧
        m' = (i.leftover (m.dropLog.fetched w)).halt) := by
  -- A step can fail before the fetch, in it, or behind it.
  cases running : m.cpu.halted with
  | true =>
      rw [step_of_halted running, Prod.mk.injEq, Except.error.injEq] at h
      exact .inl ⟨rfl, h.1.symm, h.2.symm⟩
  | false =>
      cases word : m.bus.wordAt? m.cpu.pc with
      | error e' =>
          rw [step_of_fetch_fault running word,
            if_pos (Bus.halts_of_wordAt?_error hb.fitted word), Prod.mk.injEq,
            Except.error.injEq] at h
          obtain ⟨rfl, rfl⟩ := h
          exact .inr (.inl ⟨rfl, rfl, _, rfl⟩)
      | ok w =>
          refine .inr (.inr ⟨rfl, ?_⟩)
          cases decoded : Instruction.decode? w with
          | none =>
              rw [step_of_word running word] at h
              simp only [Operation.execute, Operation.ofWord, decoded, Attempt.update_apply,
                complete, Prod.mk.injEq, reduceCtorEq, false_and] at h
          | some i =>
              cases fault : i.fault? (m.dropLog.fetched w) with
              | some e' =>
                  rw [step_of_fault hb hc running word decoded fault, Prod.mk.injEq,
                    Except.error.injEq] at h
                  obtain ⟨rfl, rfl⟩ := h
                  exact ⟨w, i, rfl, decoded, fault, rfl⟩
              | none =>
                  rw [step_of_safe hb hc running word decoded fault] at h
                  cases h

end Machine

end Chip8
