import Chip8.Machine.Run
import Chip8.Proofs.Machine.Event
import Chip8.Proofs.Machine.Record

/-!
Reports of words that stand for no instruction.

A step reports the word that it executed just if this stands for no instruction, and does nothing
else then (`step_of_unknown`). So what is reported in the course of events, or in a run, are the
unknown words among those executed, each as often as it was executed
(`unknown_words_reported_once`).
-/

namespace Chip8

/-- The report of what a step executed, if its word stands for no instruction. -/
def Snapshot.report? (s : Snapshot) : Option UnknownWord :=
  match s.operation.instruction? with
  | some _ => none
  | none => some ⟨s.operation.word, s.address % 65536⟩

namespace Machine

open Instruction

variable {m : Machine} {w : Int}

/-! ### One step -/

/-- A step that fetches an unknown word moves the program counter behind it, counts, and reports the
word with its address. -/
theorem step_of_unknown (fetches : m.Fetches w) (unknown : decode? w = none) :
    step m =
      (.ok ⟨m.cpu.pc, Operation.ofWord w, { m.cpu with pc := (m.cpu.pc + 2) % 65536, word := w },
          m.cycles + 1, #[⟨.read, m.cpu.pc, w / 256⟩, ⟨.read, m.cpu.pc + 1, w % 256⟩]⟩,
        { m with
          cpu := { m.cpu with pc := (m.cpu.pc + 2) % 65536, word := w }
          cycles := m.cycles + 1
          bus := m.bus.dropLog
          reports := m.reports ++ [⟨w, m.cpu.pc % 65536⟩] }) := by
  have address : ((m.cpu.pc + 2) % 65536 - 2) % 65536 = m.cpu.pc % 65536 := by omega
  have executed : (Operation.ofWord w).execute (m.dropLog.fetched w) = (.ok (),
      { m.dropLog.fetched w with reports := m.reports ++ [⟨w, m.cpu.pc % 65536⟩] }) := by
    simp only [Operation.execute, Operation.ofWord, unknown, Attempt.update_apply]
    rw [← address]
    rfl
  rw [step_of_word fetches.running fetches.word, executed]
  rfl

theorem reports_ite_halt (p : Prop) [Decidable p] (m : Machine) :
    (if p then m.halt else m).reports = m.reports := by
  split <;> rfl

/-- A step that fetches a word reports it if it is unknown. -/
theorem reports_step_of_word (fetches : m.Fetches w) :
    (step m).2.reports =
      m.reports ++ if decode? w = none then [⟨w, m.cpu.pc % 65536⟩] else [] := by
  cases decoded : decode? w with
  | none => rw [step_of_unknown fetches decoded, if_pos rfl]
  | some i =>
      obtain ⟨_, _, _, moved⟩ := step_effect_of_word fetches.running fetches.word
      rw [moved, execute_ofWord decoded, if_neg (Option.some_ne_none i), List.append_nil]
      exact (composed_execute i).reports (m.dropLog.fetched w)

/-- A step that fetches a word shows it to be unknown if it is. -/
theorem report?_step_of_word (fetches : m.Fetches w) :
    (step m).1.toOption.toList.filterMap Snapshot.report? =
      if decode? w = none then [⟨w, m.cpu.pc % 65536⟩] else [] := by
  cases decoded : decode? w with
  | none =>
      rw [step_of_unknown fetches decoded, if_pos rfl]
      simp [Except.toOption, Snapshot.report?, Operation.ofWord, decoded]
  | some i =>
      rw [step_of_word fetches.running fetches.word, if_neg (Option.some_ne_none i)]
      cases (Operation.ofWord w).execute (m.dropLog.fetched w) with
      | mk result executed =>
          cases result with
          | ok _ => simp [complete, Except.toOption, Snapshot.report?, Operation.ofWord, decoded]
          | error e => rfl

/-- A step that succeeds reports what it executed if that is unknown, and one that fails reports
nothing. -/
theorem reports_step_eq (m : Machine) :
    (step m).2.reports =
      m.reports ++ (step m).1.toOption.toList.filterMap Snapshot.report? := by
  cases running : m.cpu.halted with
  | true =>
      rw [step_of_halted running]
      exact (List.append_nil _).symm
  | false =>
      cases word : m.bus.wordAt? m.cpu.pc with
      | error e =>
          rw [step_of_fetch_fault running word, reports_ite_halt]
          exact (List.append_nil _).symm
      | ok w => rw [reports_step_of_word ⟨running, word⟩, report?_step_of_word ⟨running, word⟩]

/-! ### Runs -/

/-- The snapshots of the steps that succeed in the course of events, in order. -/
def successes (m : Machine) : List Event → List Snapshot
  | [] => []
  | .action .step :: events => (step m).1.toOption.toList ++ successes (step m).2 events
  | e :: events => successes (m.undergo e) events

theorem successes_append (m : Machine) (first rest : List Event) :
    m.successes (first ++ rest) = m.successes first ++ (m.undergoAll first).successes rest := by
  fun_induction successes m first with
  | case1 m => rfl
  | case2 m events ih =>
      rw [List.cons_append, successes, ih, List.append_assoc]
      rfl
  | case3 m e events noStep ih =>
      rw [List.cons_append, successes, ih]
      · rfl
      · exact noStep

/-- A run of events adds the reports of its steps that succeed, in order. -/
theorem reports_undergoAll (m : Machine) (events : List Event) :
    (m.undergoAll events).reports =
      m.reports ++ (m.successes events).filterMap Snapshot.report? := by
  fun_induction successes m events with
  | case1 m => exact (List.append_nil _).symm
  | case2 m events ih =>
      rw [undergoAll_cons, undergo, perform, ih, reports_step_eq, List.filterMap_append,
        List.append_assoc]
  | case3 m e events noStep ih => rw [undergoAll_cons, ih, (undergo_past_step noStep).2]

/-- So does a run of steps with ticks between them. -/
theorem reports_runFrom (m : Machine) (period count done : Nat) :
    (runFrom period count done m).2.reports =
      m.reports ++ (runFrom period count done m).1.snapshots.filterMap Snapshot.report? := by
  induction count generalizing m done with
  | zero => exact (List.append_nil _).symm
  | succ count ih =>
      have told := reports_step_eq m
      cases stepped : step m with
      | mk result next =>
          rw [stepped] at told
          cases result with
          | error e =>
              rw [runFrom, stepped]
              exact told
          | ok s =>
              have ticked (p : Prop) [Decidable p] :
                  (if p then next.tick else next).reports = next.reports := by
                split <;> rfl
              have first : next.reports = m.reports ++ [s].filterMap Snapshot.report? := told
              rw [runFrom, stepped]
              simp only [ih, ticked, first, List.append_assoc, ← List.filterMap_append]
              rfl

/-- A step that fetches a word reports it, with its address, if it stands for no instruction, and
else nothing. An unknown word is fetched and counted, and nothing else happens. So what is reported
in a run, whatever else happens in it, are the unknown words among those executed, in order and each
as often as it was executed. -/
theorem unknown_words_reported_once (pc : IsWord m.cpu.pc) (fetches : m.Fetches w) :
    (step m).2.reports = m.reports ++ (if decode? w = none then [⟨w, m.cpu.pc⟩] else []) ∧
    (decode? w = none →
      step m =
        (.ok ⟨m.cpu.pc, Operation.ofWord w, { m.cpu with pc := (m.cpu.pc + 2) % 65536, word := w },
            m.cycles + 1, #[⟨.read, m.cpu.pc, w / 256⟩, ⟨.read, m.cpu.pc + 1, w % 256⟩]⟩,
          { m with
            cpu := { m.cpu with pc := (m.cpu.pc + 2) % 65536, word := w }
            cycles := m.cycles + 1
            bus := m.bus.dropLog
            reports := m.reports ++ [⟨w, m.cpu.pc⟩] })) ∧
    (∀ (start : Machine) (events : List Event), (start.undergoAll events).reports =
      start.reports ++ (start.successes events).filterMap Snapshot.report?) ∧
    ∀ (start : Machine) (count period : Nat), (run count period start).2.reports =
      start.reports ++ (run count period start).1.snapshots.filterMap Snapshot.report? := by
  have address : m.cpu.pc % 65536 = m.cpu.pc := by
    obtain ⟨low, high⟩ := pc
    omega
  have reported := reports_step_of_word fetches
  have unknown := step_of_unknown fetches
  rw [address] at reported unknown
  exact ⟨reported, unknown, reports_undergoAll, fun start count period =>
    reports_runFrom start period count 0⟩

/-- An unknown word at the start is reported with the address 0. -/
theorem unknown_word_reported_at_start :
    (step (ofImage [0x00, 0x05] (by decide))).2.reports = [⟨5, 0⟩] := by
  have fetches : (ofImage [0x00, 0x05] (by decide)).Fetches 5 := ⟨rfl, rfl⟩
  exact (unknown_words_reported_once (by decide) fetches).1

end Machine

end Chip8
