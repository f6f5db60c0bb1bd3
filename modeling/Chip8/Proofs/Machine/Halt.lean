import Chip8.Proofs.Machine.Event
import Chip8.Proofs.Machine.Touch

/-!
Halting and counting.

On a sound machine every fault that a step can end in is one that stops the processor
(`Sound.step_failure`): the bus faults only at addresses that no region covers, and every value that
an instruction writes is a byte. So the processor is halted exactly when a step has failed since the
last reset, and the cycles count the steps that have succeeded since then; each of their snapshots
shows its own number (`halt_protocol`).
-/

namespace Chip8

namespace Machine

/-! ### Faults of instructions -/

/-- On a fitted bus a read fails only at an address that is not mapped, which halts. -/
theorem halting_read (a : Int) : (onBus (Bus.read a)).Halting fun m => m.bus.Fitted := by
  intro m fitted
  constructor
  · exact fitted.of_shape (Bus.shape_read a m.bus)
  · intro e fault
    rw [fitted.read_fault fault]
    rfl

theorem halting_writeFrom (a : Int) {values : List Int} (bytes : ∀ v ∈ values, IsByte v) :
    (Bus.writeFrom a values).Halting Bus.Fitted := by
  apply Bus.writeFrom_of_closed Attempt.closed_halting
  intro v mem a b fitted
  constructor
  · exact fitted.of_shape (Bus.shape_write a v b)
  · intro e fault
    rw [fitted.write_fault (bytes v mem) fault]
    rfl

/-- What neither fails nor changes the bus. -/
theorem halting_of_aside {α : Type} {x : Attempt Machine α}
    (aside : ∀ m, ∃ a, (x m).1 = .ok a ∧ (x m).2.bus = m.bus) :
    x.Halting fun m => m.bus.Fitted := by
  apply Attempt.Keeps.halting
  · intro m fitted
    obtain ⟨a, _, bus⟩ := aside m
    rwa [bus]
  · intro m
    obtain ⟨a, ok, _⟩ := aside m
    exact ⟨a, ok⟩

theorem halting_drawSprite (x y : Register) (rows : Nat) :
    (drawSprite x y rows).Halting fun m => m.bus.Fitted := by
  apply drawSprite_of_closed Attempt.closed_halting _ halting_read
  · intro x y bits
    exact halting_of_aside fun m => ⟨_, rfl, rfl⟩
  · intro hit
    exact halting_of_aside fun m => ⟨_, rfl, rfl⟩
  · exact halting_of_aside fun m => ⟨_, rfl, rfl⟩

theorem halting_loadRegisters (address : Int) (count k : Nat) :
    (loadRegisters address count k).Halting fun m => m.bus.Fitted := by
  apply loadRegisters_of_closed Attempt.closed_halting halting_read
  intro j inside byte
  exact halting_of_aside fun m => ⟨_, rfl, rfl⟩

end Machine

namespace Instruction

open Machine

variable {m : Machine}

/-- Whatever an instruction ends in stops the processor. -/
theorem halts_of_execute (fitted : m.bus.Fitted) (hc : m.cpu.Regular) {i : Instruction} {e : Fault}
    (fault : (i.execute m).1 = .error e) : e.halts = true := by
  have low := hc.sp_nonneg
  have high : m.cpu.sp ≤ 16 := hc.sp_le
  -- Only stack and bus can refuse; no other instruction has a fault.
  cases i with
  | ret =>
      simp only [execute, onCpu_apply] at fault
      by_cases empty : m.cpu.sp = 0
      · rw [Cpu.ret_of_zero empty] at fault
        cases fault
        rfl
      · rw [Cpu.ret_of_pos (by omega) high] at fault
        cases fault
  | call t =>
      simp only [execute, onCpu_apply] at fault
      by_cases full : m.cpu.sp = 16
      · rw [Cpu.call_of_full full] at fault
        cases fault
        rfl
      · rw [Cpu.call_of_room low (by omega)] at fault
        cases fault
  | draw x y rows => exact (halting_drawSprite x y rows.val m fitted).2 e fault
  | storeDecimal x =>
      exact (halting_writeFrom m.cpu.i (isByte_of_mem_decimalDigits (hc.registers x))
        m.bus fitted).2 e fault
  | storeRegisters x =>
      exact (halting_writeFrom m.cpu.i (isByte_of_mem_registerBlock hc x) m.bus fitted).2 e fault
  | loadRegisters x => exact (halting_loadRegisters m.cpu.i (x.val + 1) 0 m fitted).2 e fault
  | awaitKey x =>
      rw [execute, awaitKey_apply] at fault
      cases fault
  | _ => cases fault

end Instruction

namespace Machine

variable {m m' : Machine} {e : Fault} {s : Snapshot}

/-! ### One step -/

/-- An operation that fails on a sound machine fails in a way that halts the processor. -/
theorem halts_of_operation (fitted : m.bus.Fitted) (hc : m.cpu.Regular) {o : Operation}
    (fault : (o.execute m).1 = .error e) : e.halts = true := by
  unfold Operation.execute at fault
  cases decoded : o.instruction? with
  | some i =>
      rw [decoded] at fault
      exact Instruction.halts_of_execute fitted hc fault
  | none =>
      rw [decoded] at fault
      cases fault

/-- Executing what was fetched neither stops the processor nor counts. -/
theorem Sound.unmarked (h : m.Sound) (w : Int) :
    ((Operation.ofWord w).execute (m.dropLog.fetched w)).2.cpu.halted = m.cpu.halted ∧
      ((Operation.ofWord w).execute (m.dropLog.fetched w)).2.cycles = m.cycles := by
  have kept := within_operation (m := m.dropLog.fetched w) h.bounded.sp_nonneg w
  exact ⟨kept .halted id, kept .cycles id⟩

/-- A step that fails stops the processor and is not counted. -/
theorem Sound.step_failure (h : m.Sound) (failing : step m = (.error e, m')) :
    e.halts = true ∧ m'.cpu.halted = true ∧ m'.cycles = m.cycles := by
  cases running : m.cpu.halted with
  | true =>
      rw [step_of_halted running] at failing
      cases failing
      exact ⟨rfl, running, rfl⟩
  | false =>
      cases word : m.bus.wordAt? m.cpu.pc with
      | error e' =>
          have halts := Bus.halts_of_wordAt?_error h.fitted word
          rw [step_of_fetch_fault running word, if_pos halts] at failing
          cases failing
          exact ⟨halts, rfl, rfl⟩
      | ok w =>
          -- The instruction failed, so the count is the one that the fetch found.
          have counted := (h.unmarked w).2
          have regular : (m.dropLog.fetched w).cpu.Regular := { h.bounded.toRegular with }
          rw [step_of_word running word] at failing
          cases run : (Operation.ofWord w).execute (m.dropLog.fetched w) with
          | mk result executed =>
              rw [run] at failing counted
              cases result with
              | ok _ => cases failing
              | error e' =>
                  have halts : e'.halts = true := halts_of_operation (m := m.dropLog.fetched w)
                    h.fitted regular (congrArg Prod.fst run)
                  simp only [if_pos halts] at failing
                  cases failing
                  exact ⟨halts, rfl, counted⟩

/-- A step that succeeds keeps the processor running and is counted, and its snapshot shows the
count. -/
theorem Sound.step_success (h : m.Sound) (success : step m = (.ok s, m')) :
    m.cpu.halted = false ∧ m'.cpu.halted = false ∧ m'.cycles = m.cycles + 1 ∧
      s.cycle = m.cycles + 1 := by
  obtain ⟨running, w, executed, _, run, rfl, rfl⟩ := step_success_cases success
  obtain ⟨going, counted⟩ := h.unmarked w
  rw [run] at going counted
  have cycles : executed.cycles + (Operation.ofWord w).cycles = m.cycles + 1 :=
    congrArg (· + 1) counted
  exact ⟨running, going.trans running, cycles, cycles⟩

/-! ### Runs -/

/-- The answers of the steps since the last reset, brought up to date by an event. -/
def recorded (answers : List (Except Fault Snapshot)) (m : Machine) :
    Event → List (Except Fault Snapshot)
  | .action .step => answers ++ [(step m).1]
  | .action .reset => []
  | _ => answers

/-- The answers of the steps since the last reset after a run of events, if `answers` are those
before it. -/
def answersAfter (answers : List (Except Fault Snapshot)) (m : Machine) :
    List Event → List (Except Fault Snapshot)
  | [] => answers
  | e :: events => answersAfter (recorded answers m e) (m.undergo e) events

def snapshots (answers : List (Except Fault Snapshot)) : List Snapshot :=
  answers.filterMap Except.toOption

theorem snapshots_concat_ok (answers : List (Except Fault Snapshot)) (s : Snapshot) :
    snapshots (answers ++ [.ok s]) = snapshots answers ++ [s] := by
  simp [snapshots, Except.toOption]

theorem snapshots_concat_error (answers : List (Except Fault Snapshot)) (e : Fault) :
    snapshots (answers ++ [.error e]) = snapshots answers := by
  simp [snapshots, Except.toOption]

/-- The processor is halted exactly if a step failed, and the cycles number the steps that
succeeded. -/
structure Tallies (answers : List (Except Fault Snapshot)) (m : Machine) : Prop where
  halted_iff : m.cpu.halted = true ↔ ∃ e, .error e ∈ answers
  numbered : (snapshots answers).map Snapshot.cycle = List.range' 1 m.cycles

variable {answers : List (Except Fault Snapshot)}

/-- A step that succeeds is counted, and one that fails halts. -/
theorem Tallies.step (h : Tallies answers m) (sound : m.Sound) :
    Tallies (answers ++ [(Machine.step m).1]) (Machine.step m).2 := by
  cases run : Machine.step m with
  | mk result m' =>
      cases result with
      | ok s =>
          obtain ⟨running, going, cycles, cycle⟩ := sound.step_success run
          -- A step succeeds on a running processor alone, so nothing has failed so far.
          have faultless : ¬ ∃ e, Except.error e ∈ answers := by
            intro failed
            rw [h.halted_iff.mpr failed] at running
            cases running
          constructor
          · refine iff_of_false (by simp [going]) ?_
            rintro ⟨e, mem⟩
            rcases List.mem_append.mp mem with earlier | last
            · exact faultless ⟨e, earlier⟩
            · simp at last
          · rw [snapshots_concat_ok, List.map_append, h.numbered, cycles, List.range'_concat]
            simp [cycle, Nat.add_comm]
      | error e =>
          obtain ⟨_, halted, cycles⟩ := sound.step_failure run
          constructor
          · exact iff_of_true halted ⟨e, List.mem_append_right _ (List.mem_singleton.mpr rfl)⟩
          · rw [snapshots_concat_error, h.numbered, cycles]

/-- A step lengthens the tally, a reset clears it, and nothing else touches it. -/
theorem Tallies.undergo (h : Tallies answers m) (sound : m.Sound) (event : Event) :
    Tallies (recorded answers m event) (m.undergo event) := by
  by_cases isStep : event = .action .step
  · subst isStep
    exact h.step sound
  · by_cases isReset : event = .action .reset
    · subst isReset
      exact ⟨by simp [recorded, Machine.undergo, perform, reset, Cpu.initial], rfl⟩
    · obtain ⟨⟨delay, sound, aside⟩, cycles⟩ := undergo_aside isStep isReset
      have same : recorded answers m event = answers := by
        cases event with
        | action a => cases a <;> first | rfl | contradiction
        | _ => rfl
      rw [same]
      constructor
      · rw [aside]
        exact h.halted_iff
      · rw [cycles]
        exact h.numbered

/-- Along any run of events the tallies are kept. -/
theorem Tallies.undergoAll (h : Tallies answers m) (sound : m.Sound) (events : List Event) :
    Tallies (answersAfter answers m events) (m.undergoAll events) := by
  induction events generalizing answers m with
  | nil => exact h
  | cons event events ih => exact ih (h.undergo sound event) (sound.undergo event)

variable {config : Config} {seed : Int}

theorem tallies_of_build [Host] (built : config.build seed = .ok m) : Tallies [] m := by
  obtain ⟨memory, display, cpu, _, _, _, _, initial, rfl⟩ := Config.build_eq_ok_iff.mp built
  have running := Config.halted_initialCpu initial
  exact ⟨by simp [running], rfl⟩

/-- However a machine that was built is used, its processor is halted exactly if a step has failed
since the last reset. While it is halted every step fails and does nothing but drop the pending log;
a reset sets it going at the program start, with everything else in it zero. The cycles are the
number of steps that have succeeded since the last reset, and each of their snapshots shows its
number. -/
theorem halt_protocol [Host] (built : config.build seed = .ok m) (events : List Event) :
    let n := m.undergoAll events
    let answers := answersAfter [] m events
    (n.cpu.halted = true ↔ ∃ e, .error e ∈ answers) ∧
      (n.cpu.halted = true → step n = (.error (.halted n.cpu.pc), n.dropLog)) ∧
      n.reset = { n with
        cycles := 0
        cpu :=
          { pc := config.programStart, sp := 0, halted := false, v := Vector.replicate 16 0, i := 0,
            delay := 0, sound := 0, stack := Vector.replicate 16 0, word := 0 } } ∧
      n.cycles = (snapshots answers).length ∧
      (snapshots answers).map Snapshot.cycle = List.range' 1 n.cycles := by
  intro n answers
  have tallies : Tallies answers n :=
    (tallies_of_build built).undergoAll (Sound.of_build built) events
  have start : n.programStart = config.programStart := by
    obtain ⟨memory, display, cpu, _, _, _, _, _, rfl⟩ := Config.build_eq_ok_iff.mp built
    exact programStart_undergoAll _ events
  have count : n.cycles = (snapshots answers).length := by
    have lengths := congrArg List.length tallies.numbered
    rw [List.length_map, List.length_range'] at lengths
    exact lengths.symm
  refine ⟨tallies.halted_iff, step_of_halted, ?_, count, tallies.numbered⟩
  rw [reset, start]
  rfl

/-- The usual machine, but for a program that starts behind the end of memory. -/
def startingPastEnd : Config := { Config.default with programStart := 4096 }

/-- Such a machine halts in its first step, refuses the next one, and runs again after a reset. -/
theorem startingPastEnd_halts_until_reset : ∃ m n r, startingPastEnd.build 0 = .ok m ∧
    n = m.undergoAll [.action .step] ∧ n.cpu.halted = true ∧
      step n = (.error (.halted n.cpu.pc), n.dropLog) ∧
      r = m.undergoAll [.action .step, .action .step, .action .reset] ∧ r.cpu.halted = false ∧
      r.cycles = 0 := by
  obtain ⟨m, built⟩ : ∃ m, startingPastEnd.build 0 = .ok m :=
    Config.exists_build 0 (by decide) (by decide) (by decide) (by decide) rfl
  obtain ⟨running, start⟩ : m.cpu.halted = false ∧ m.cpu.pc = 4096 := by
    obtain ⟨memory, display, cpu, _, _, _, _, initial, rfl⟩ := Config.build_eq_ok_iff.mp built
    exact ⟨Config.halted_initialCpu initial, Config.pc_initialCpu initial⟩
  have unmapped : ¬ (m.bus.Maps m.cpu.pc ∧ m.bus.Maps (m.cpu.pc + 1)) := by
    rintro ⟨mapped, _⟩
    rw [start, Config.maps_of_build built] at mapped
    exact absurd mapped.2 (by decide)
  have sound := Sound.of_build built
  obtain ⟨e, m', failing, _⟩ := Fails.step (Config.wellFormed_of_build built).backed
    sound.bounded.toRegular (.fetch running unmapped)
  obtain ⟨halted, refuses, _⟩ := halt_protocol built [.action .step]
  have stopped : (m.undergoAll [.action .step]).cpu.halted = true := by
    refine halted.mpr ⟨e, ?_⟩
    rw [answersAfter, answersAfter, recorded, failing]
    exact List.mem_singleton.mpr rfl
  obtain ⟨goes, _, _, cycles, _⟩ :=
    halt_protocol built [.action .step, .action .step, .action .reset]
  refine ⟨m, _, _, built, rfl, stopped, refuses stopped, rfl, ?_, cycles⟩
  rw [Bool.eq_false_iff]
  intro still
  obtain ⟨e', mem⟩ := goes.mp still
  cases mem

end Machine

end Chip8
