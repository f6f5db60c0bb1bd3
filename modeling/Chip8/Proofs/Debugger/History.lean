import Chip8.Proofs.Debugger.Course
import Chip8.Proofs.Debugger.Edit

/-!
The history of a debugger.

What a debugger is told to do adds to its history the snapshots of the steps that it made itself and
that succeeded, and what is done past it adds nothing (`Command.Records`). A run is made of such
steps, so the same holds of it however it ends (`Turns.extends`). Nothing ever takes a snapshot away,
the latest one is the last of the history, and no run is under way between commands
(`history_extends`).
-/

namespace Chip8

namespace Machine

variable {m : Machine} {snapshot : Snapshot} {shown : List Snapshot}

theorem afterSteps_step (m : Machine) (k : Nat) :
    (step m).2.afterSteps k = m.afterSteps (k + 1) := by
  induction k with
  | zero => rfl
  | succ k ih => exact congrArg (fun m => (step m).2) ih

/-- What a step shows as registers are those that it leaves. -/
theorem cpu_of_step (h : (step m).1 = .ok snapshot) : snapshot.cpu = (step m).2.cpu := by
  have success : step m = (.ok snapshot, (step m).2) := Prod.ext h rfl
  obtain ⟨_, w, executed, _, _, rfl, after⟩ := step_success_cases success
  rw [after]

/-- Snapshots of the first plain steps of a machine, in their order and without a gap. Each shows
the registers that its step left. -/
structure Shows (m : Machine) (shown : List Snapshot) : Prop where
  steps : ∀ (k : Nat) snapshot, shown[k]? = some snapshot →
    (step (m.afterSteps k)).1 = .ok snapshot
  registers : ∀ (k : Nat) snapshot, shown[k]? = some snapshot →
    snapshot.cpu = (m.afterSteps (k + 1)).cpu

theorem shows_nil (m : Machine) : m.Shows [] := by
  constructor <;> simp

theorem Shows.cons (first : (step m).1 = .ok snapshot) (rest : (step m).2.Shows shown) :
    m.Shows (snapshot :: shown) := by
  constructor
  · intro k later found
    cases k with
    | zero =>
        cases found
        exact first
    | succ k =>
        rw [← afterSteps_step]
        exact rest.steps k later (by simpa using found)
  · intro k later found
    cases k with
    | zero =>
        cases found
        exact cpu_of_step first
    | succ k =>
        rw [← afterSteps_step]
        exact rest.registers k later (by simpa using found)

end Machine

namespace Session

open Machine

variable {s t u : Session} {listener : Listener} {r : Except Fault Halt} {k : Nat}

/-! ### Steps and runs -/

/-- The debugger executes what the machine would execute on its own. -/
theorem machine_step (listener : Listener) (s : Session) :
    (s.step listener).2.machine = (Machine.step s.machine).2 := (makes_step listener s).machine

/-- A step starts no run. -/
theorem not_running_step (idle : s.debugger.running = false) (listener : Listener) :
    (s.step listener).2.debugger.running = false := by
  obtain ⟨m, d⟩ := s
  rw [Bool.eq_false_iff] at idle ⊢
  intro going
  cases answer : (Machine.step m).1 with
  | ok snapshot =>
      obtain ⟨d', stepped, _, _, running, _⟩ := step_of_success answer listener d
      rw [stepped] at going
      exact idle (running.mp going).1
  | error e =>
      obtain ⟨d', stepped, _, running, _⟩ := step_of_fault answer listener d
      rw [stepped] at going
      exact idle (running going)

/-- A session goes on to another, and `shown` is what its history gains on the way: the snapshots of
the first steps of its machine. If the latest snapshot was the last of the history, it still is. -/
structure Extends (s t : Session) (shown : List Snapshot) : Prop where
  history : t.debugger.history.toList = s.debugger.history.toList ++ shown
  shows : s.machine.Shows shown
  latest : s.debugger.last? = s.debugger.history.back? →
    t.debugger.last? = t.debugger.history.back?

/-- What changes neither the history nor the latest snapshot extends the history by nothing. -/
theorem extends_nil (history : t.debugger.history = s.debugger.history)
    (latest : t.debugger.last? = s.debugger.last?) : s.Extends t [] :=
  ⟨by rw [history, List.append_nil], shows_nil _, by rw [history, latest]; exact id⟩

/-- A step that succeeds comes first in what the history gains. -/
theorem Extends.step {snapshot : Snapshot} {shown : List Snapshot}
    (success : (Machine.step s.machine).1 = .ok snapshot)
    (rest : (s.step listener).2.Extends t shown) : s.Extends t (snapshot :: shown) := by
  obtain ⟨m, d⟩ := s
  obtain ⟨d', stepped, _, _, _, latest, history⟩ := step_of_success success listener d
  rw [stepped] at rest
  refine ⟨?_, rest.shows.cons success, fun _ => rest.latest ?_⟩
  · rw [rest.history, history, Array.toList_push, List.append_assoc, List.singleton_append]
  · rw [latest, history, Array.back?_push]

/-- A step that succeeds adds its snapshot to the history. -/
theorem extends_step_of_success {snapshot : Snapshot}
    (success : (Machine.step s.machine).1 = .ok snapshot) (listener : Listener) :
    s.Extends (s.step listener).2 [snapshot] :=
  .step success (extends_nil rfl rfl)

/-- A step that fails adds nothing to the history. -/
theorem extends_step_of_fault {e : Fault} (fault : (Machine.step s.machine).1 = .error e)
    (listener : Listener) : s.Extends (s.step listener).2 [] := by
  obtain ⟨m, d⟩ := s
  obtain ⟨d', stepped, _, _, latest, history⟩ := step_of_fault fault listener d
  rw [stepped]
  exact extends_nil history latest

/-- How a run of a machine has ended after `n` steps that succeeded: it counted them, on top of `k`
from before, or failed in the one after them. -/
def Concludes (m m' : Machine) (k n : Nat) : Except Fault Halt → Prop
  | .ok h => h.steps = k + n ∧ m' = m.afterSteps n
  | .error e => (Machine.step (m.afterSteps n)).1 = .error e ∧ m' = m.afterSteps (n + 1)

theorem concludes_succ {m m' : Machine} {n : Nat} (h : Concludes (Machine.step m).2 m' (k + 1) n r) :
    Concludes m m' k (n + 1) r := by
  cases r with
  | ok h' =>
      obtain ⟨steps, machine⟩ := h
      exact ⟨by omega, by rw [machine, afterSteps_step]⟩
  | error e =>
      obtain ⟨fault, machine⟩ := h
      exact ⟨by rwa [← afterSteps_step], by rw [machine, afterSteps_step]⟩

/-- Whatever ends the turns of a run, the history gains the snapshots of its steps that
succeeded. -/
theorem Turns.extends (turns : Turns listener k s r t) :
    ∃ shown, s.Extends t shown ∧ Concludes s.machine t.machine k shown.length r := by
  induction turns with
  | halt steps => exact ⟨[], extends_nil rfl rfl, steps, rfl⟩
  | @fault _ s _ fault =>
      exact ⟨[], extends_step_of_fault fault listener, fault, machine_step listener s⟩
  | @step _ s _ _ snapshot success _ ih =>
      obtain ⟨shown, rest, ended⟩ := ih
      rw [machine_step] at ended
      exact ⟨snapshot :: shown, rest.step success, concludes_succ ended⟩

/-! ### Commands -/

/-- What a debugger can be told, or done past it, with what came of it. -/
inductive Command where
  | step (listener : Listener) (r : Except Fault Snapshot)
  | run (listener : Listener) (limit? : Option Int) (r : Except Fault Halt)
  /-- Something that happens to the machine past the debugger. -/
  | event (e : Event)
  | edit (e : Debugger.Edit)
  | stop

/-- A session goes on to another through a command. -/
inductive Obeys (s : Session) : Command → Session → Prop where
  | step (listener : Listener) : Obeys s (.step listener (s.step listener).1) (s.step listener).2
  | run {listener : Listener} {limit? : Option Int} {budget : Nat} {r : Except Fault Halt}
      {t : Session} : s.run listener limit? budget = some (r, t) →
      Obeys s (.run listener limit? r) t
  | event (e : Event) : Obeys s (.event e) { s with machine := s.machine.undergo e }
  | edit (e : Debugger.Edit) : Obeys s (.edit e) { s with debugger := s.debugger.edit e }
  | stop : Obeys s .stop { s with debugger := s.debugger.stop }

/-- What the history gains through a command, and what becomes of the machine:

* a step under the debugger adds its snapshot if it succeeds,
* a run adds as many snapshots as it has counted steps, or one for each step before the one that
  failed, and
* anything else adds nothing. -/
def Command.Records (m m' : Machine) (shown : List Snapshot) : Command → Prop
  | .step _ r => Machine.step m = (r, m') ∧ shown = r.toOption.toList
  | .run _ _ (.ok h) => shown.length = h.steps ∧ m' = m.afterSteps h.steps
  | .run _ _ (.error e) =>
    (Machine.step (m.afterSteps shown.length)).1 = .error e ∧ m' = m.afterSteps (shown.length + 1)
  | .event e => m' = m.undergo e ∧ shown = []
  | .edit _ | .stop => m' = m ∧ shown = []

/-- The sessions that commands lead to. -/
inductive Reaches (s : Session) : Session → Prop where
  | start : Reaches s s
  | obey {t u : Session} (c : Command) : Reaches s t → Obeys t c u → Reaches s u

/-- Each command extends the history by what it records. -/
theorem Obeys.extends {c : Command} (obeys : Obeys s c t) :
    ∃ shown, s.Extends t shown ∧ c.Records s.machine t.machine shown := by
  cases obeys with
  | step listener =>
      have same : Machine.step s.machine = ((s.step listener).1, (s.step listener).2.machine) :=
        Prod.ext (step_fst listener s).symm (machine_step listener s).symm
      cases answer : (Machine.step s.machine).1 with
      | ok snapshot =>
          refine ⟨[snapshot], extends_step_of_success answer listener, same, ?_⟩
          rw [step_fst, answer]
          rfl
      | error e =>
          refine ⟨[], extends_step_of_fault answer listener, same, ?_⟩
          rw [step_fst, answer]
          rfl
  | @run listener _ _ r _ ends =>
      -- A run records what its turns do; ending it changes nothing of the history.
      obtain ⟨last, turns, rfl⟩ := run_turns ends
      obtain ⟨shown, extended, ended⟩ := turns.extends
      refine ⟨shown, ⟨extended.history, extended.shows, extended.latest⟩, ?_⟩
      cases r with
      | ok h =>
          obtain ⟨steps, machine⟩ := ended
          rw [Nat.zero_add] at steps
          exact ⟨steps.symm, steps ▸ machine⟩
      | error e => exact ended
  | event e => exact ⟨[], extends_nil rfl rfl, rfl, rfl⟩
  | edit e => exact ⟨[], extends_nil (by cases e <;> rfl) (by cases e <;> rfl), rfl, rfl⟩
  | stop => exact ⟨[], extends_nil rfl rfl, rfl, rfl⟩

/-- No command leaves a run under way. -/
theorem Obeys.not_running {c : Command} (obeys : Obeys s c t)
    (idle : s.debugger.running = false) : t.debugger.running = false := by
  cases obeys with
  | step listener => exact not_running_step idle listener
  | run ends =>
      obtain ⟨last, _, rfl⟩ := run_turns ends
      rfl
  | event e => exact idle
  | edit e => cases e <;> exact idle
  | stop => rfl

/-- However a session goes on, what the history held it still holds. -/
theorem Reaches.history_prefix (reaches : Reaches s t) :
    s.debugger.history.toList <+: t.debugger.history.toList := by
  induction reaches with
  | start => exact List.prefix_refl _
  | obey c _ obeys ih =>
      obtain ⟨shown, extended, _⟩ := obeys.extends
      exact ih.trans (extended.history ▸ List.prefix_append _ _)

/-- Between commands no run is under way and the latest snapshot is the last of the history, if it
has one. -/
theorem Reaches.settled {m : Machine} (reaches : Reaches (create m) s) :
    s.debugger.running = false ∧ s.debugger.last? = s.debugger.history.back? := by
  induction reaches with
  | start => exact ⟨rfl, rfl⟩
  | obey c _ obeys ih =>
      obtain ⟨shown, extended, _⟩ := obeys.extends
      exact ⟨obeys.not_running ih.1, extended.latest ih.2⟩

/-- Whatever a debugger is told from its start on, its history grows by the snapshots of its own
steps that succeed, in their order and with the registers that each of them left, and by nothing
else. What the history shows it goes on showing. -/
theorem history_extends {m : Machine} (reaches : Reaches (create m) s) :
    s.debugger.running = false ∧ s.debugger.last? = s.debugger.history.back? ∧
      (s.debugger.last? = none ↔ s.debugger.history = #[]) ∧
      (∀ c t, Obeys s c t → ∃ shown,
        t.debugger.history.toList = s.debugger.history.toList ++ shown ∧
          s.machine.Shows shown ∧ c.Records s.machine t.machine shown) ∧
      ∀ t, Reaches s t → s.debugger.history.toList <+: t.debugger.history.toList := by
  obtain ⟨idle, latest⟩ := reaches.settled
  refine ⟨idle, latest, ?_, ?_, fun t => Reaches.history_prefix⟩
  · rw [latest, Array.back?_eq_none_iff]
  · intro c t obeys
    obtain ⟨shown, extended, records⟩ := obeys.extends
    exact ⟨shown, extended.history, extended.shows, records⟩

/-- A program that clears the screen and returns with nothing to return to. -/
def returning : Machine := ofImage [0x00, 0xE0, 0x00, 0xEE] (by decide)

/-- A run of it fails in its second step and has recorded the first. -/
theorem returning_records_first_step :
    ∃ e t, run ⟨fun _ => false⟩ none 3 (create returning) = some (.error e, t) ∧
      t.debugger.running = false ∧ ∃ snapshot, t.debugger.history.toList = [snapshot] ∧
        snapshot.cpu = (returning.afterSteps 1).cpu := by
  have runs : ∃ e t, run ⟨fun _ => false⟩ none 3 (create returning) = some (.error e, t) ∧
      t.debugger.history.size = 1 := ⟨_, _, rfl, rfl⟩
  obtain ⟨e, t, ends, size⟩ := runs
  obtain ⟨_, _, _, records, _⟩ := history_extends (m := returning) .start
  obtain ⟨shown, history, shows, _⟩ := records _ t (.run ends)
  obtain ⟨idle, _⟩ := history_extends (.obey _ .start (.run ends))
  have recorded : t.debugger.history.toList = shown := history
  rw [← Array.length_toList, recorded] at size
  obtain ⟨snapshot, rfl⟩ := List.length_eq_one_iff.mp size
  exact ⟨e, t, ends, idle, snapshot, recorded, shows.registers 0 snapshot rfl⟩

end Session

end Chip8
