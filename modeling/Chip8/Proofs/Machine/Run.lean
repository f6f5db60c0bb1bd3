import Chip8.Machine.Run
import Chip8.Proofs.Machine.Action
import Chip8.Proofs.Machine.Failure

/-!
Runs, step by step.

A run takes steps one after the other, with a tick of the timers after each one whose number is a
multiple of its period, until the steps are done or one fails (`run_stepped`). The machine stays
well-formed on the way (`Stepped.wellFormed`), so a step that fails stops the processor
(`WellFormed.halts_of_step`).
-/

namespace Chip8.Machine

/-- Steps that all succeeded, with a tick of the timers after each one whose number, counted from 1,
is a multiple of `period`: what they showed, in order, and the machine after them. -/
inductive Stepped (period : Nat) (m : Machine) : List Snapshot → Machine → Prop where
  | start : Stepped period m [] m
  | step {snapshots : List Snapshot} {s : Snapshot} {n n' : Machine} :
      Stepped period m snapshots n → Machine.step n = (.ok s, n') →
        Stepped period m (snapshots ++ [s])
          (if period ∣ snapshots.length + 1 then n'.tick else n')

variable {m n : Machine} {period : Nat} {snapshots : List Snapshot}

theorem Stepped.wellFormed (h : Stepped period m snapshots n) (start : m.WellFormed) :
    n.WellFormed := by
  induction h with
  | start => exact start
  | @step snapshots s n n' _ success ih =>
      have after : n'.WellFormed := by
        have performed := ih.perform .step
        rwa [perform, success] at performed
      by_cases due : period ∣ snapshots.length + 1
      · rw [if_pos due]
        exact after.perform .tick
      · rwa [if_neg due]

/-- On a well-formed machine every fault of a step stops the processor. -/
theorem WellFormed.halts_of_step (h : m.WellFormed) {e : Fault} {m' : Machine}
    (failing : step m = (.error e, m')) : e.halts = true := by
  rcases (fails_of_step h.backed h.bounded.toRegular failing).kind_eq with
    kind | kind | kind | kind
  all_goals
    rw [Fault.halts, kind]
    rfl

/-- `count` steps that follow others are all done, or the one after those that were done fails. -/
theorem runFrom_stepped (positive : 0 < period) (before : Stepped period m snapshots n)
    (count : Nat) :
    ∃ more last, Stepped period m (snapshots ++ more) last ∧
      (more.length = count ∧ runFrom period count snapshots.length n = (⟨more, none⟩, last) ∨
        more.length < count ∧ ∃ e final, step last = (.error e, final) ∧
          runFrom period count snapshots.length n = (⟨more, some e⟩, final)) := by
  induction count generalizing snapshots n with
  | zero => exact ⟨[], n, by rwa [List.append_nil], .inl ⟨rfl, rfl⟩⟩
  | succ count ih =>
      cases first : step n with
      | mk result n' =>
          cases result with
          | error e =>
              refine ⟨[], n, by rwa [List.append_nil], .inr ⟨?_, e, n', first, ?_⟩⟩
              · exact Nat.zero_lt_succ count
              · rw [runFrom, first]
          | ok s =>
              have due : (period ≠ 0 ∧ (snapshots.length + 1) % period = 0) ↔
                  period ∣ snapshots.length + 1 := by
                rw [Nat.dvd_iff_mod_eq_zero]
                exact and_iff_right (Nat.ne_of_gt positive)
              obtain ⟨more, last, stepped, ended⟩ := ih (before.step first)
              rw [List.length_append, List.length_singleton] at ended
              simp only [runFrom, first, due]
              refine ⟨s :: more, last, by rwa [List.append_assoc] at stepped, ?_⟩
              rcases ended with ⟨all, goes⟩ | ⟨fewer, e, final, failing, goes⟩
              · exact .inl ⟨congrArg (· + 1) all, by rw [goes]⟩
              · exact .inr ⟨Nat.succ_lt_succ fewer, e, final, failing, by rw [goes]⟩

/-- A run does its steps in order, and ticks in between, until all are done or one fails. -/
theorem run_stepped (positive : 0 < period) (m : Machine) (count : Nat) :
    ∃ snapshots last, Stepped period m snapshots last ∧
      (snapshots.length = count ∧ run count period m = (⟨snapshots, none⟩, last) ∨
        snapshots.length < count ∧ ∃ e final, step last = (.error e, final) ∧
          run count period m = (⟨snapshots, some e⟩, final)) :=
  runFrom_stepped positive .start count

end Chip8.Machine
