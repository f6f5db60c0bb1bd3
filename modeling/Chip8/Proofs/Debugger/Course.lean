import Chip8.Proofs.Debugger.Run
import Chip8.Proofs.Machine.Report

/-!
What happens to a machine under a debugger, seen as events.

A step under the debugger is a step of the machine, kept in the history if it succeeds, and a run is
some number of these (`run_turns`, `run_makes`). So whatever is done with a debugger, the machine
undergoes events, and what the debugger's steps show are the successes among them
(`Course.exists_events`).
-/

namespace Chip8.Session

open Machine

variable {s t u : Session} {n k : Nat} {listener : Listener} {limit? : Option Int}
  {r : Except Fault Halt}

/-! ### Steps under the debugger -/

/-- A session goes on to another with `n` plain steps of the machine, and the successful ones of
these are added to the history. -/
structure Makes (s t : Session) (n : Nat) : Prop where
  machine : t.machine = s.machine.undergoAll (List.replicate n (.action .step))
  history : t.debugger.history.toList =
    s.debugger.history.toList ++ s.machine.successes (List.replicate n (.action .step))

/-- Without a step, machine and history stay. -/
theorem makes_zero (machine : t.machine = s.machine)
    (history : t.debugger.history = s.debugger.history) : Makes s t 0 :=
  ⟨machine, by simp [history, successes]⟩

/-- Steps after steps are steps, and their numbers add up. -/
theorem Makes.trans (first : Makes s t n) (rest : Makes t u k) : Makes s u (n + k) := by
  constructor
  · rw [rest.machine, first.machine, List.replicate_add, undergoAll_append]
  · rw [rest.history, first.history, first.machine, List.replicate_add, successes_append,
      List.append_assoc]

/-- A step under the debugger answers what the step of the machine answers. -/
theorem step_fst (listener : Listener) (s : Session) :
    (s.step listener).1 = (Machine.step s.machine).1 := by
  obtain ⟨m, d⟩ := s
  cases result : (Machine.step m).1 with
  | ok snapshot =>
      obtain ⟨_, stepped, _⟩ := step_of_success result listener d
      rw [stepped]
  | error e =>
      obtain ⟨_, stepped, _⟩ := step_of_fault result listener d
      rw [stepped]

theorem makes_step (listener : Listener) (s : Session) : Makes s (s.step listener).2 1 := by
  obtain ⟨m, d⟩ := s
  have shown : m.successes [.action .step] = (Machine.step m).1.toOption.toList :=
    List.append_nil _
  cases answer : (Machine.step m).1 with
  | ok snapshot =>
      obtain ⟨d', stepped, _, _, _, _, history⟩ := step_of_success answer listener d
      rw [answer] at shown
      rw [stepped]
      refine ⟨rfl, ?_⟩
      rw [history, Array.toList_push, List.replicate_one, shown]
      rfl
  | error e =>
      obtain ⟨d', stepped, _, _, _, history⟩ := step_of_fault answer listener d
      rw [answer] at shown
      rw [stepped]
      refine ⟨rfl, ?_⟩
      rw [history, List.replicate_one, shown]
      exact (List.append_nil _).symm

/-! ### Runs of the debugger -/

/-- The turns of a run from a session on, `k` steps having been made before, and the session that
they end with. The run may end in front of any step, and it ends with the first one that fails. -/
inductive Turns (listener : Listener) : Nat → Session → Except Fault Halt → Session → Prop where
  | halt {k : Nat} {s : Session} {h : Halt} : h.steps = k → Turns listener k s (.ok h) s
  | fault {k : Nat} {s : Session} {e : Fault} : (Machine.step s.machine).1 = .error e →
      Turns listener k s (.error e) (s.step listener).2
  | step {k : Nat} {s t : Session} {r : Except Fault Halt} {snapshot : Snapshot} :
      (Machine.step s.machine).1 = .ok snapshot →
      Turns listener (k + 1) (s.step listener).2 r t → Turns listener k s r t

/-- A turn that is gone on from is one of the turns of the run. -/
theorem advance_turns {budget : Nat} (turn : advance listener limit? budget k s = some (r, t))
    (later : ∀ {s}, rounds listener limit? budget (k + 1) s = some (r, t) →
      Turns listener (k + 1) s r t) : Turns listener k s r t := by
  have answer := step_fst listener s
  rw [advance] at turn
  cases stepped : s.step listener with
  | mk result s' =>
      obtain rfl : (s.step listener).2 = s' := congrArg Prod.snd stepped
      rw [stepped] at turn answer
      cases result with
      | error e =>
          cases turn
          exact .fault answer.symm
      | ok snapshot =>
          simp only at turn
          split at turn
          case isTrue =>
            cases turn
            exact .step answer.symm (.halt rfl)
          case isFalse => exact .step answer.symm (later turn)

theorem rounds_turns {budget : Nat} (ends : rounds listener limit? budget k s = some (r, t)) :
    Turns listener k s r t := by
  induction budget generalizing k s with
  | zero => cases ends
  | succ budget ih =>
      rw [rounds_succ] at ends
      split at ends
      case isTrue =>
        cases ends
        exact .halt rfl
      case isFalse =>
        split at ends
        case isTrue =>
          cases ends
          exact .halt rfl
        case isFalse => exact advance_turns ends ih

/-- A run that ends, in whatever way, ends with its turns. -/
theorem run_turns {budget : Nat} (ends : run listener limit? budget s = some (r, t)) :
    ∃ last, Turns listener 0 s.started r last ∧ t = last.ended := by
  rw [run_eq, Option.map_eq_some_iff] at ends
  obtain ⟨⟨_, last⟩, goes, same⟩ := ends
  cases same
  refine ⟨last, ?_, rfl⟩
  rw [runFrom_eq] at goes
  split at goes
  case isTrue => exact advance_turns goes rounds_turns
  case isFalse => exact rounds_turns goes

/-- Turns make some number of steps. -/
theorem Turns.makes (turns : Turns listener k s r t) : ∃ n, Makes s t n := by
  induction turns with
  | halt _ => exact ⟨0, makes_zero rfl rfl⟩
  | @fault _ s _ _ => exact ⟨1, makes_step listener s⟩
  | @step _ s _ _ _ _ _ ih =>
      obtain ⟨n, rest⟩ := ih
      exact ⟨1 + n, (makes_step listener s).trans rest⟩

/-- A run that ends has made plain steps, and the history shows the successful ones. -/
theorem run_makes {budget : Nat} (ends : run listener limit? budget s = some (r, t)) :
    ∃ n, Makes s t n := by
  obtain ⟨last, turns, rfl⟩ := run_turns ends
  obtain ⟨n, made⟩ := turns.makes
  exact ⟨n, made.machine, made.history⟩

/-! ### Courses -/

/-- What can happen to a machine under a debugger, from a session on: the snapshots of the
successful steps so far, and the session then. -/
inductive Course (s : Session) : List Snapshot → Session → Prop where
  | start : Course s [] s
  /-- Something happens to the machine past the debugger. -/
  | event {shown : List Snapshot} {t : Session} (e : Event) : Course s shown t →
      Course s (shown ++ t.machine.successes [e]) { t with machine := t.machine.undergo e }
  /-- A step under the debugger, which may fail. -/
  | step {shown : List Snapshot} {t : Session} (listener : Listener) : Course s shown t →
      Course s (shown ++ (t.step listener).1.toOption.toList) (t.step listener).2
  /-- A run of the debugger, which may end with a fault. It shows what it adds to the history. -/
  | run {shown : List Snapshot} {t u : Session} {listener : Listener} {limit? : Option Int}
      {budget : Nat} {r : Except Fault Halt} : Course s shown t →
      t.run listener limit? budget = some (r, u) →
      Course s (shown ++ u.debugger.history.toList.drop t.debugger.history.size) u
  /-- The debugger is told something else: to stop, or about breakpoints. -/
  | tell {shown : List Snapshot} {t : Session} (d : Debugger) : Course s shown t →
      d.history = t.debugger.history → Course s shown { t with debugger := d }

/-- Whatever is done with a debugger, the machine undergoes events, and the snapshots shown are
those of their successful steps. -/
theorem Course.exists_events {shown : List Snapshot} (course : Course s shown t) :
    ∃ events, t.machine = s.machine.undergoAll events ∧ shown = s.machine.successes events := by
  induction course with
  | start => exact ⟨[], rfl, rfl⟩
  | event e _ ih =>
      obtain ⟨events, machine, rfl⟩ := ih
      refine ⟨events ++ [e], ?_, ?_⟩
      · rw [undergoAll_append, machine]
        rfl
      · rw [successes_append, machine]
  | @step _ t listener _ ih =>
      obtain ⟨events, machine, rfl⟩ := ih
      refine ⟨events ++ [.action .step], ?_, ?_⟩
      · rw [(makes_step listener t).machine, machine, undergoAll_append]
        rfl
      · rw [successes_append, step_fst, machine]
        exact congrArg (_ ++ ·) (List.append_nil _).symm
  | run _ ends ih =>
      obtain ⟨events, machine, rfl⟩ := ih
      obtain ⟨n, made⟩ := run_makes ends
      refine ⟨events ++ List.replicate n (.action .step), ?_, ?_⟩
      · rw [made.machine, machine, undergoAll_append]
      · rw [successes_append, made.history, machine, ← Array.length_toList, List.drop_left]
  | tell d _ _ ih => exact ih

end Chip8.Session
