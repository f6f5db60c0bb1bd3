import Chip8.Machine.Run
import Chip8.Proofs.Machine.Composition
import Chip8.Proofs.Machine.Failure

/-!
The log of a step as a record of what the step did to memory.

A successful step starts its log with the two bytes of the word that it executed, and replaying the
log on what memory held before the step leads to what memory holds after it. So the logs of a run,
one after the other, replay the memory of its start into the memory of its end
(`step_log_replays_memory`). What was in the log before a step plays no part.
-/

namespace Chip8

namespace Machine

variable {m m' : Machine} {s : Snapshot}

/-- A successful step fetched a word, executed its operation and completed. -/
theorem step_success_cases (h : step m = (.ok s, m')) :
    m.cpu.halted = false ∧ ∃ w executed, m.bus.wordAt? m.cpu.pc = .ok w ∧
      (Operation.ofWord w).execute (m.dropLog.fetched w) = (.ok (), executed) ∧
      s = ⟨m.cpu.pc, Operation.ofWord w, executed.cpu,
        executed.cycles + (Operation.ofWord w).cycles, executed.bus.log⟩ ∧
      m' = { executed with
        cycles := executed.cycles + (Operation.ofWord w).cycles
        bus := executed.bus.dropLog } := by
  cases running : m.cpu.halted with
  | true =>
      rw [step_of_halted running] at h
      cases h
  | false =>
      refine ⟨rfl, ?_⟩
      cases word : m.bus.wordAt? m.cpu.pc with
      | error e =>
          rw [step_of_fetch_fault running word] at h
          cases h
      | ok w =>
          rw [step_of_word running word] at h
          cases run : (Operation.ofWord w).execute (m.dropLog.fetched w) with
          | mk result executed =>
              rw [run] at h
              cases result with
              | ok _ =>
                  simp only [complete, Prod.mk.injEq, Except.ok.injEq] at h
                  exact ⟨w, executed, rfl, run, h.1.symm, h.2.symm⟩
              | error e => cases h

/-- A step that succeeds shows the word that it fetched. -/
theorem fetches_of_success (h : step m = (.ok s, m')) : m.Fetches s.operation.word := by
  obtain ⟨running, w, _, word, _, rfl, _⟩ := step_success_cases h
  exact ⟨running, word⟩

/-! ### The log of one step -/

/-- The log of a step: what its snapshot shows, or what is pending where it failed. -/
def stepLog (m : Machine) : List Access :=
  match step m with
  | (.ok s, _) => s.log.toList
  | (.error _, m') => m'.bus.log.toList

theorem stepLog_of_success (h : step m = (.ok s, m')) : stepLog m = s.log.toList := by
  rw [stepLog, h]

/-- A running processor starts a step with an empty log, and is halted where the step fails so. -/
theorem step_of_running (running : m.cpu.halted = false) :
    step m =
      match fetchAndExecute m.dropLog with
      | (.ok o, executed) => complete m.cpu.pc o executed
      | (.error e, executed) => (.error e, if e.halts then executed.halt else executed) := by
  have running' : m.dropLog.cpu.halted = false := running
  simp only [step, running']
  rfl

theorem bus_ite_halt (p : Prop) [Decidable p] (m : Machine) :
    (if p then m.halt else m).bus = m.bus := by
  split <;> rfl

/-- Where the processor runs, all that is logged is logged while fetching and executing. -/
theorem stepLog_of_running (running : m.cpu.halted = false) :
    stepLog m = (fetchAndExecute m.dropLog).2.bus.log.toList := by
  rw [stepLog, step_of_running running]
  cases fetchAndExecute m.dropLog with
  | mk result executed =>
      cases result with
      | ok o => rfl
      | error e => simp only [bus_ite_halt]

/-- Replaying the log of a step, whether it succeeds or fails, leads from memory before it to memory
after it. -/
theorem records_stepLog (hb : m.bus.Backed) : m.bus.Records (stepLog m) (step m).2.bus := by
  cases running : m.cpu.halted with
  | true =>
      rw [stepLog, step_of_halted running]
      exact ⟨rfl, rfl⟩
  | false =>
      have accesses := accessed_fetchAndExecute m.dropLog
      rw [stepLog_of_running running, step_of_running running]
      cases run : fetchAndExecute m.dropLog with
      | mk result executed =>
          rw [run] at accesses
          obtain ⟨xs, logged, recorded⟩ := accesses.records (b := m.dropLog.bus) hb
          have all : executed.bus.log.toList = xs := logged
          rw [all]
          cases result with
          | ok o => exact { recorded with }
          | error e =>
              simp only [bus_ite_halt]
              exact { recorded with }

/-- Replaying the log of a successful step leads from memory before it to memory after it. -/
theorem records_step (hb : m.bus.Backed) (h : step m = (.ok s, m')) :
    m.bus.Records s.log.toList m'.bus := by
  have recorded := records_stepLog hb
  rwa [stepLog_of_success h, h] at recorded

/-- The log of a successful step starts with the bytes of its word. -/
theorem log_starts_with_word (h : step m = (.ok s, m')) :
    ∃ high low : UInt8,
      [⟨.read, m.cpu.pc, high.toNat⟩, ⟨.read, m.cpu.pc + 1, low.toNat⟩] <+: s.log.toList ∧
        s.operation.word = (high.toNat <<< 8 ||| low.toNat : Nat) := by
  obtain ⟨_, w, executed, word, run, rfl, rfl⟩ := step_success_cases h
  have accesses := accessed_execute (Operation.ofWord w) (m.dropLog.fetched w)
  rw [run] at accesses
  have logged := accesses.log_grows
  obtain ⟨high, low, _, _, rfl⟩ := Bus.bytes_of_wordAt? word
  have below := low.toNat_lt
  have joined : high.toNat <<< 8 ||| low.toNat = high.toNat * 256 + low.toNat := by
    rw [← Nat.shiftLeft_add_eq_or_of_lt below, Nat.shiftLeft_eq]
  refine ⟨high, low, ?_, by rw [joined]; rfl⟩
  have upper : ((high.toNat : Int) * 256 + low.toNat) / 256 = high.toNat := by omega
  have lower : ((high.toNat : Int) * 256 + low.toNat) % 256 = low.toNat := by omega
  simpa [fetched, dropLog, Bus.dropLog, Bus.note, upper, lower] using logged

/-- What is pending in the log has no influence on a step. -/
theorem step_with_log (pending : Array Access) :
    step { m with bus := { m.bus with log := pending } } = step m := rfl

/-- A run whose first step succeeds goes on where that step, and a tick after it, left the machine. -/
theorem runFrom_of_success {next : Machine} (h : step m = (.ok s, next)) (period count done : Nat) :
    ∃ start : Machine, start.bus = next.bus ∧
      runFrom period (count + 1) done m =
        (⟨s :: (runFrom period count (done + 1) start).1.snapshots,
          (runFrom period count (done + 1) start).1.fault?⟩,
          (runFrom period count (done + 1) start).2) := by
  refine ⟨if period ≠ 0 ∧ (done + 1) % period = 0 then next.tick else next, ?_, ?_⟩
  · split <;> rfl
  · rw [runFrom, h]

/-- The logs of a run without a fault replay the memory of its start into that of its end. -/
theorem records_runFrom (hb : m.bus.Backed) (period count done : Nat)
    (faultless : (runFrom period count done m).1.fault? = none) :
    (runFrom period count done m).1.snapshots.length = count ∧
      m.bus.Records ((runFrom period count done m).1.snapshots.flatMap fun s => s.log.toList)
        (runFrom period count done m).2.bus := by
  induction count generalizing done m with
  | zero => exact ⟨rfl, Bus.records_nil m.bus⟩
  | succ count ih =>
      cases first : step m with
      | mk result next =>
          cases result with
          | error e =>
              rw [runFrom, first] at faultless
              cases faultless
          | ok s =>
              have recorded := records_step hb first
              obtain ⟨start, same, goes⟩ := runFrom_of_success first period count done
              rw [goes] at faultless ⊢
              have backed : start.bus.Backed := by
                rw [same]
                exact hb.of_shape recorded.shape
              obtain ⟨all, replayed⟩ := ih backed (done + 1) faultless
              rw [same] at replayed
              exact ⟨congrArg (· + 1) all, recorded.append replayed⟩

/-- A successful step starts its log with the two bytes of the word that it executed, and the log
replays the memory before the step into the memory after it. Nothing that was logged before appears
in it, and nothing stays pending. So the logs of a run of successful steps, one after the other,
replay the memory of its start into that of its end. -/
theorem step_log_replays_memory {m : Machine} (rams : m.bus.OfRams) :
    (∀ s m', step m = (.ok s, m') →
      (∃ high low : UInt8,
        [⟨.read, m.cpu.pc, high.toNat⟩, ⟨.read, m.cpu.pc + 1, low.toNat⟩] <+: s.log.toList ∧
          s.operation.word = (high.toNat <<< 8 ||| low.toNat : Nat)) ∧
      m.bus.Records s.log.toList m'.bus ∧ m'.bus.log = #[] ∧
      ∀ pending, step { m with bus := { m.bus with log := pending } } = (.ok s, m')) ∧
    ∀ count period r m', run count period m = (r, m') → r.fault? = none →
      r.snapshots.length = count ∧
        m.bus.Records (r.snapshots.flatMap fun s => s.log.toList) m'.bus := by
  have hb := rams.backed
  refine ⟨fun s m' success => ⟨log_starts_with_word success, records_step hb success, ?_, ?_⟩, ?_⟩
  · obtain ⟨_, w, executed, _, _, _, rfl⟩ := step_success_cases success
    rfl
  · intro pending
    rw [step_with_log, success]
  · intro count period r m' finished faultless
    have replayed := records_runFrom hb period count 0
    rw [← run, finished] at replayed
    exact replayed faultless

/-- A program that overwrites its own first byte: the log of its two steps replays the old program
into the new one. -/
theorem overwriting_run_replays :
    (ofImage [0xF0, 0x55, 0x00, 0xE0] (by decide)).bus.OfRams ∧
      Bus.Records (ofImage [0xF0, 0x55, 0x00, 0xE0] (by decide)).bus
        [⟨.read, 0, 0xF0⟩, ⟨.read, 1, 0x55⟩, ⟨.write, 0, 0⟩, ⟨.read, 2, 0⟩, ⟨.read, 3, 0xE0⟩]
        (ofImage [0x00, 0x55, 0x00, 0xE0] (by decide)).bus := by
  refine ⟨ofRams_ofImage _ _, ?_⟩
  exact ((step_log_replays_memory (ofRams_ofImage [0xF0, 0x55, 0x00, 0xE0] (by decide))).2 2 0 _ _
    rfl rfl).2

end Machine

end Chip8
