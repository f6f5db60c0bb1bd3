import Mathlib.Order.Bounds.Defs
import Chip8.Proofs.Debugger.Breakpoint
import Chip8.Proofs.Machine.Composition
import Chip8.Proofs.Machine.Failure
import Chip8.Proofs.Machine.Step

/-!
Where a run of the debugger ends.

`Machine.afterSteps` is the machine after some number of plain steps, and `Session.Due` says for
which numbers a stop is due: the limit is reached, a breakpoint is hit or stands at the program
counter, or the listener asks for it. A run makes plain steps up to the least number for which a
stop is due, up to the first step that fails, or for ever (`run_stops_exactly`).

The loop and the step that passes over a breakpoint at the start share one body, `advance`; what one
turn of it does is `advance_of_due`, `advance_of_not_due` and `advance_of_fault`, and what it does in
many turns follows by induction (`advance_steps`). That a run which ends at a breakpoint is stopped by
one of its breakpoints is an induction on the budget (`run_halts_at`).
-/

namespace Chip8

namespace Machine

/-- A step reports one word or none. -/
theorem reports_step (m : Machine) :
    (step m).2.reports = m.reports ∨ ∃ w, (step m).2.reports = m.reports ++ [w] := by
  obtain ⟨halted, cycles, log, still | ⟨w, _, moved⟩⟩ := step_effect m
  · rw [still]
    exact .inl rfl
  · rw [moved]
    have reported := reports_execute (Operation.ofWord w) (m.dropLog.fetched w)
    cases decoded : (Operation.ofWord w).instruction? with
    | some i =>
        rw [decoded] at reported
        exact .inl reported
    | none =>
        rw [decoded] at reported
        exact .inr ⟨_, reported⟩

/-- The machine after `k` plain steps, each of which may have failed. -/
def afterSteps (m : Machine) : Nat → Machine
  | 0 => m
  | k + 1 => (step (m.afterSteps k)).2

/-- The first `n` plain steps succeed. -/
def Succeeds (m : Machine) (n : Nat) : Prop := ∀ k < n, ∃ s, (step (m.afterSteps k)).1 = .ok s

end Machine

open Machine

/-- The numbers of steps after which a breakpoint stops a run that started at a machine. -/
inductive Breakpoint.Stops (b : Breakpoint) (m : Machine) : Nat → Prop where
  | hit {k : Nat} {snapshot : Snapshot} : (Machine.step (m.afterSteps k)).1 = .ok snapshot →
      b.Hit snapshot.log (m.afterSteps k).cpu (m.afterSteps (k + 1)).cpu → b.Stops m (k + 1)
  | pc {k : Nat} : b.AtPc (m.afterSteps (k + 1)).cpu.pc → b.Stops m (k + 1)

/-- A listener that is told of a word between two states of a machine and asks for a stop. -/
def Listener.Interrupts (listener : Listener) (before after : Machine) : Prop :=
  ∃ w, after.reports = before.reports ++ [w] ∧ listener.asksStop after.reports = true

theorem Listener.interrupts_step_iff (listener : Listener) (m : Machine) :
    (decide (m.reports.length < (step m).2.reports.length) &&
        listener.asksStop (step m).2.reports) = true ↔ listener.Interrupts m (step m).2 := by
  rw [Bool.and_eq_true, decide_eq_true_iff]
  constructor
  · rintro ⟨longer, asks⟩
    rcases reports_step m with same | ⟨w, told⟩
    · rw [same] at longer
      exact absurd longer (Nat.lt_irrefl _)
    · exact ⟨w, told, asks⟩
  · rintro ⟨w, told, asks⟩
    refine ⟨?_, asks⟩
    rw [told, List.length_append]
    exact Nat.lt_succ_self _

namespace Session

/-- The numbers of steps after which a run of a session is due to stop. -/
inductive Due (listener : Listener) (limit? : Option Int) (s : Session) : Nat → Prop where
  | limit {k : Nat} : limit? = some ((k + 1 : Nat) : Int) → Due listener limit? s (k + 1)
  | breakpoint {k : Nat} {b : Breakpoint} : b ∈ s.debugger.breakpoints → b.Stops s.machine k →
      Due listener limit? s k
  | request {k : Nat} :
      listener.Interrupts (s.machine.afterSteps k) (s.machine.afterSteps (k + 1)) →
      Due listener limit? s (k + 1)

variable {listener : Listener} {limit? : Option Int} {s : Session} {d : Debugger} {k n : Nat}

/-- No stop is due before the first step. -/
theorem Due.exists_succ (due : s.Due listener limit? n) : ∃ k, n = k + 1 := by
  cases due with
  | limit _ => exact ⟨_, rfl⟩
  | breakpoint _ stops => cases stops <;> exact ⟨_, rfl⟩
  | request _ => exact ⟨_, rfl⟩

/-! ### One step under the debugger -/

/-- A debugger whose run goes on with the breakpoints of a session. -/
structure Underway (s : Session) (d : Debugger) : Prop where
  running : d.running = true
  breakpoints : d.breakpoints = s.debugger.breakpoints

/-- A step that succeeds under the debugger is a plain step. The debugger keeps the registers before
it, its snapshot as the latest and the last of the history, and goes on running unless the listener
interrupts. -/
theorem step_of_success {m : Machine} {snapshot : Snapshot}
    (h : (Machine.step m).1 = .ok snapshot) (listener : Listener) (d : Debugger) :
    ∃ d', Session.step listener ⟨m, d⟩ = (.ok snapshot, ⟨(Machine.step m).2, d'⟩) ∧
      d'.breakpoints = d.breakpoints ∧ d'.before = m.cpu ∧
      (d'.running = true ↔ d.running = true ∧ ¬ listener.Interrupts m (Machine.step m).2) ∧
      d'.last? = some snapshot ∧ d'.history = d.history.push snapshot := by
  rw [← listener.interrupts_step_iff m]
  cases first : Machine.step m with
  | mk result m' =>
      rw [first] at h
      obtain rfl : result = .ok snapshot := h
      simp only [Session.step, first]
      by_cases interrupted : (decide (m.reports.length < m'.reports.length) &&
          listener.asksStop m'.reports) = true
      · rw [if_pos interrupted]
        exact ⟨_, rfl, rfl, rfl, by simp [Debugger.keep, Debugger.stop, interrupted], rfl, rfl⟩
      · rw [if_neg interrupted]
        exact ⟨_, rfl, rfl, rfl, by simp [Debugger.keep, interrupted], rfl, rfl⟩

/-- A step that fails under the debugger is a plain step. The debugger keeps its snapshots. -/
theorem step_of_fault {m : Machine} {e : Fault} (h : (Machine.step m).1 = .error e)
    (listener : Listener) (d : Debugger) :
    ∃ d', Session.step listener ⟨m, d⟩ = (.error e, ⟨(Machine.step m).2, d'⟩) ∧
      d'.breakpoints = d.breakpoints ∧ (d'.running = true → d.running = true) ∧
      d'.last? = d.last? ∧ d'.history = d.history := by
  cases first : Machine.step m with
  | mk result m' =>
      rw [first] at h
      obtain rfl : result = .error e := h
      simp only [Session.step, first]
      refine ⟨_, rfl, ?_⟩
      split
      case isTrue => exact ⟨rfl, nofun, rfl, rfl⟩
      case isFalse => exact ⟨rfl, id, rfl, rfl⟩

/-! ### One turn of a run -/

/-- One step of a run after `k` steps, and the rounds after it. -/
def advance (listener : Listener) (limit? : Option Int) (budget k : Nat) (s : Session) :
    Option (Except Fault Halt × Session) :=
  match s.step listener with
  | (.error e, s) => some (.error e, s)
  | (.ok snapshot, s) =>
    if s.debugger.stopsAfter snapshot.log s.machine.cpu then
      some (.ok ⟨k + 1, some snapshot.cpu.pc⟩, s)
    else rounds listener limit? budget (k + 1) s

theorem rounds_succ (budget : Nat) (s : Session) :
    rounds listener limit? (budget + 1) k s =
      if !s.debugger.running || limitReached limit? k then some (.ok ⟨k, none⟩, s)
      else if s.debugger.stopsAt s.machine.cpu.pc then some (.ok ⟨k, some s.machine.cpu.pc⟩, s)
      else advance listener limit? budget k s := rfl

/-- A breakpoint where a run starts does not keep it from starting. -/
theorem runFrom_eq (budget : Nat) (s : Session) :
    runFrom listener limit? budget s =
      if s.debugger.stopsAt s.machine.cpu.pc && !limitReached limit? 0 then
        advance listener limit? budget 0 s
      else rounds listener limit? budget 0 s := rfl

/-- The limit lies beyond a number of steps. -/
def Within (limit? : Option Int) (k : Nat) : Prop := ∀ l, limit? = some l → (k : Int) < l

/-- The limit is reached exactly if it does not lie beyond the number of steps. -/
theorem limitReached_iff : limitReached limit? k = true ↔ ¬ Within limit? k := by
  cases limit? with
  | none => simp [limitReached, Within]
  | some l => simp [limitReached, Within]

theorem within_succ (h : Within limit? k) :
    Within limit? (k + 1) ↔ limit? ≠ some ((k + 1 : Nat) : Int) := by
  constructor
  · intro within eq
    have := within _ eq
    omega
  · intro ne l eq
    have := h l eq
    have : l ≠ ((k + 1 : Nat) : Int) := fun same => ne (same ▸ eq)
    omega

/-- The turn of a step that succeeds: the run ends if a breakpoint was hit, and otherwise goes on. -/
theorem advance_of_success {snapshot : Snapshot}
    (success : (Machine.step (s.machine.afterSteps k)).1 = .ok snapshot) :
    ∃ d', d'.breakpoints = d.breakpoints ∧ d'.before = (s.machine.afterSteps k).cpu ∧
      (d'.running = true ↔ d.running = true ∧
        ¬ listener.Interrupts (s.machine.afterSteps k) (s.machine.afterSteps (k + 1))) ∧
      ∀ budget, advance listener limit? budget k ⟨s.machine.afterSteps k, d⟩ =
        if d'.stopsAfter snapshot.log (s.machine.afterSteps (k + 1)).cpu then
          some (.ok ⟨k + 1, some snapshot.cpu.pc⟩, ⟨s.machine.afterSteps (k + 1), d'⟩)
        else rounds listener limit? budget (k + 1) ⟨s.machine.afterSteps (k + 1), d'⟩ := by
  obtain ⟨d', stepped, kept, before, running, _⟩ := step_of_success success listener d
  refine ⟨d', kept, before, running, fun budget => ?_⟩
  simp only [advance, stepped]
  rfl

section Turn

variable {snapshot : Snapshot} (going : s.Underway d) (within : Within limit? k)
  (success : (Machine.step (s.machine.afterSteps k)).1 = .ok snapshot)

include going within success

/-- A run ends with the step after which a stop is due. -/
theorem advance_of_due (due : s.Due listener limit? (k + 1)) :
    ∃ h d', (∀ budget, advance listener limit? (budget + 1) k ⟨s.machine.afterSteps k, d⟩ =
        some (.ok h, ⟨s.machine.afterSteps (k + 1), d'⟩)) ∧
      h.steps = k + 1 ∧ d'.breakpoints = s.debugger.breakpoints := by
  obtain ⟨d', kept, before, running, turn⟩ := advance_of_success (d := d) success
  have same : d'.breakpoints = s.debugger.breakpoints := kept.trans going.breakpoints
  -- The cases are the tests of the loop in their order: a hit ends the run in this turn, the others
  -- at the start of the next one.
  by_cases hit : d'.stopsAfter snapshot.log (s.machine.afterSteps (k + 1)).cpu = true
  · exact ⟨_, d', fun budget => (turn _).trans (if_pos hit), rfl, same⟩
  · by_cases idle : (!d'.running || limitReached limit? (k + 1)) = true
    · refine ⟨⟨k + 1, none⟩, d', fun budget => ?_, rfl, same⟩
      rw [turn, if_neg hit, rounds_succ, if_pos idle]
    · have atPc : d'.stopsAt (s.machine.afterSteps (k + 1)).cpu.pc = true := by
        rw [Bool.or_eq_true, not_or, Bool.not_eq_true', Bool.not_eq_false, limitReached_iff,
          not_not, within_succ within] at idle
        cases due with
        | limit reached => exact absurd reached idle.2
        | breakpoint mem stops =>
            cases stops with
            | hit ran hits =>
                rw [ran, Except.ok.injEq] at success
                rw [← success] at hit
                refine absurd (Debugger.stopsAfter_iff.mpr ⟨_, same ▸ mem, ?_⟩) hit
                rwa [before]
            | pc stands => exact Debugger.stopsAt_iff.mpr ⟨_, same ▸ mem, stands⟩
        | request interrupts => exact absurd interrupts (running.mp idle.1).2
      refine ⟨⟨k + 1, some (s.machine.afterSteps (k + 1)).cpu.pc⟩, d', fun budget => ?_, rfl, same⟩
      rw [turn, if_neg hit, rounds_succ, if_neg idle, if_pos atPc]

/-- A run goes on after a step after which no stop is due. -/
theorem advance_of_not_due (free : ¬ s.Due listener limit? (k + 1)) :
    ∃ d', s.Underway d' ∧ Within limit? (k + 1) ∧
      advance listener limit? 0 k ⟨s.machine.afterSteps k, d⟩ = none ∧
      ∀ budget, advance listener limit? (budget + 1) k ⟨s.machine.afterSteps k, d⟩ =
        advance listener limit? budget (k + 1) ⟨s.machine.afterSteps (k + 1), d'⟩ := by
  obtain ⟨d', kept, before, running, turn⟩ := advance_of_success (d := d) success
  have same : d'.breakpoints = s.debugger.breakpoints := kept.trans going.breakpoints
  have goes : d'.running = true :=
    running.mpr ⟨going.running, fun interrupts => free (.request interrupts)⟩
  have beyond : Within limit? (k + 1) := (within_succ within).mpr fun reached => free (.limit reached)
  -- Each test of the loop would make a stop due, so all of them are passed.
  have passed : ¬ d'.stopsAfter snapshot.log (s.machine.afterSteps (k + 1)).cpu = true := by
    rw [Debugger.stopsAfter_iff]
    rintro ⟨b, mem, hits⟩
    rw [before] at hits
    exact free (.breakpoint (same ▸ mem) (.hit success hits))
  have idle : ¬ (!d'.running || limitReached limit? (k + 1)) = true := by
    rw [goes, Bool.not_true, Bool.false_or, limitReached_iff, not_not]
    exact beyond
  have clear : ¬ d'.stopsAt (s.machine.afterSteps (k + 1)).cpu.pc = true := by
    rw [Debugger.stopsAt_iff]
    rintro ⟨b, mem, stands⟩
    exact free (.breakpoint (same ▸ mem) (.pc stands))
  refine ⟨d', ⟨goes, same⟩, beyond, ?_, fun budget => ?_⟩
  · rw [turn, if_neg passed]
    rfl
  · rw [turn, if_neg passed, rounds_succ, if_neg idle, if_neg clear]

end Turn

/-- A run ends with the step that fails. -/
theorem advance_of_fault (going : s.Underway d) {e : Fault}
    (fault : (Machine.step (s.machine.afterSteps k)).1 = .error e) :
    ∃ d', (∀ budget, advance listener limit? budget k ⟨s.machine.afterSteps k, d⟩ =
        some (.error e, ⟨s.machine.afterSteps (k + 1), d'⟩)) ∧
      d'.breakpoints = s.debugger.breakpoints := by
  obtain ⟨d', stepped, kept, _⟩ := step_of_fault fault listener d
  refine ⟨d', fun budget => ?_, kept.trans going.breakpoints⟩
  simp only [advance, stepped]
  rfl

/-! ### Many turns of a run -/

/-- While its steps succeed and no stop is due, a run makes plain steps. -/
theorem advance_steps (going : s.Underway d) (within : Within limit? 0)
    (succeeds : s.machine.Succeeds n) (free : ∀ k ≤ n, ¬ s.Due listener limit? k) :
    ∃ d', s.Underway d' ∧ Within limit? n ∧
      ∀ budget, advance listener limit? (budget + n) 0 ⟨s.machine, d⟩ =
        advance listener limit? budget n ⟨s.machine.afterSteps n, d'⟩ := by
  induction n with
  | zero => exact ⟨d, going, within, fun _ => rfl⟩
  | succ n ih =>
      obtain ⟨d₁, going₁, within₁, before⟩ := ih (fun k below => succeeds k (Nat.lt_succ_of_lt below))
        fun k upTo => free k (Nat.le_succ_of_le upTo)
      obtain ⟨snapshot, success⟩ := succeeds n (Nat.lt_succ_self n)
      obtain ⟨d₂, going₂, within₂, _, turn⟩ :=
        advance_of_not_due going₁ within₁ success (free (n + 1) (Nat.le_refl _))
      refine ⟨d₂, going₂, within₂, fun budget => ?_⟩
      calc advance listener limit? (budget + (n + 1)) 0 ⟨s.machine, d⟩
          = advance listener limit? ((budget + 1) + n) 0 ⟨s.machine, d⟩ := by
            rw [Nat.add_assoc, Nat.add_comm 1 n]
        _ = advance listener limit? (budget + 1) n ⟨s.machine.afterSteps n, d₁⟩ := before _
        _ = advance listener limit? budget (n + 1) ⟨s.machine.afterSteps (n + 1), d₂⟩ := turn _

/-- A run whose limit lies ahead starts with a step, whether or not a breakpoint stands at its
start. -/
theorem runFrom_cases (running : s.debugger.running = true) (within : Within limit? 0)
    (budget : Nat) :
    runFrom listener limit? budget s = advance listener limit? budget 0 s ∨
      (budget = 0 ∧ runFrom listener limit? budget s = none) ∨
      ∃ b, budget = b + 1 ∧ runFrom listener limit? budget s = advance listener limit? b 0 s := by
  have open' : limitReached limit? 0 = false := by
    rw [← Bool.not_eq_true, limitReached_iff, not_not]
    exact within
  rw [runFrom_eq]
  by_cases stands : s.debugger.stopsAt s.machine.cpu.pc = true
  · refine .inl (if_pos ?_)
    rw [stands, open']
    rfl
  · right
    rw [if_neg (by rw [Bool.eq_false_iff.mpr stands, Bool.false_and]; exact Bool.false_ne_true)]
    cases budget with
    | zero => exact .inl ⟨rfl, rfl⟩
    | succ b =>
        refine .inr ⟨b, rfl, ?_⟩
        rw [rounds_succ, if_neg (by rw [running, open']; exact Bool.false_ne_true), if_neg stands]

/-- A turn with which a run ends at a breakpoint was stopped by one, unless the rounds after it end
the run. -/
theorem advance_halts_cases {budget : Nat} {h : Halt} {t : Session}
    (ends : advance listener limit? budget k ⟨s.machine.afterSteps k, d⟩ = some (.ok h, t)) :
    (∃ b ∈ d.breakpoints, b.Stops s.machine h.steps) ∨
      ∃ d', d'.breakpoints = d.breakpoints ∧
        rounds listener limit? budget (k + 1) ⟨s.machine.afterSteps (k + 1), d'⟩ =
          some (.ok h, t) := by
  cases result : (Machine.step (s.machine.afterSteps k)).1 with
  | error e =>
      obtain ⟨d', stepped, _⟩ := step_of_fault result listener d
      simp only [advance, stepped] at ends
      cases ends
  | ok snapshot =>
      obtain ⟨d', kept, before, _, turn⟩ := advance_of_success (d := d) result
      rw [turn] at ends
      split at ends
      case isTrue hit =>
        obtain ⟨b, mem, hits⟩ := Debugger.stopsAfter_iff.mp hit
        rw [before] at hits
        cases ends
        exact .inl ⟨b, kept ▸ mem, .hit result hits⟩
      case isFalse => exact .inr ⟨d', kept, ends⟩

/-- A run whose turns end at a breakpoint is stopped by one of its breakpoints. -/
theorem advance_halts_at {budget : Nat} {h : Halt} {t : Session}
    (ends : advance listener limit? budget k ⟨s.machine.afterSteps k, d⟩ = some (.ok h, t))
    (halted : h.breakpoint? ≠ none) : ∃ b ∈ d.breakpoints, b.Stops s.machine h.steps := by
  induction budget generalizing k d with
  | zero =>
      rcases advance_halts_cases ends with stopped | ⟨_, _, goes⟩
      · exact stopped
      · cases goes
  | succ budget ih =>
      rcases advance_halts_cases ends with stopped | ⟨d', kept, goes⟩
      · exact stopped
      · rw [rounds_succ] at goes
        split at goes
        case isTrue =>
          cases goes
          exact absurd rfl halted
        case isFalse =>
          split at goes
          case isTrue atPc =>
            obtain ⟨b, mem, stands⟩ := Debugger.stopsAt_iff.mp atPc
            cases goes
            exact ⟨b, kept ▸ mem, .pc stands⟩
          case isFalse => exact kept ▸ ih goes

/-- A run whose limit is zero or less ends in its first round. -/
theorem runFrom_of_not_within (reached : ¬ Within limit? 0) (budget : Nat) :
    runFrom listener limit? budget s =
      if budget = 0 then none else some (.ok ⟨0, none⟩, s) := by
  have closed : limitReached limit? 0 = true := limitReached_iff.mpr reached
  rw [runFrom_eq, closed, Bool.not_true, Bool.and_false, if_neg Bool.false_ne_true]
  cases budget with
  | zero => rfl
  | succ budget =>
      rw [rounds_succ, closed, Bool.or_true, if_pos rfl, if_neg (Nat.succ_ne_zero budget)]

/-! ### Runs -/

def started (s : Session) : Session := { s with debugger := { s.debugger with running := true } }

def ended (s : Session) : Session := { s with debugger := s.debugger.stop }

theorem run_eq (budget : Nat) :
    run listener limit? budget s =
      (runFrom listener limit? budget s.started).map fun (r, s) => (r, s.ended) := rfl

theorem underway_started (s : Session) : s.Underway s.started.debugger := ⟨rfl, rfl⟩

/-- A run whose budget suffices ends as its turns do. -/
theorem run_of_advance (within : Within limit? 0) {r : Except Fault Halt} {t : Session} {n : Nat}
    (turns : ∀ budget, advance listener limit? (budget + n) 0 s.started = some (r, t)) {budget : Nat}
    (suffices' : n < budget) : run listener limit? budget s = some (r, t.ended) := by
  have enough (b : Nat) (large : n ≤ b) : advance listener limit? b 0 s.started = some (r, t) := by
    rw [← Nat.sub_add_cancel large]
    exact turns _
  rw [run_eq]
  rcases runFrom_cases (s := s.started) rfl within budget with same | ⟨rfl, _⟩ | ⟨b, rfl, same⟩
  · rw [same, enough budget (Nat.le_of_lt suffices')]
    rfl
  · exact absurd suffices' (Nat.not_lt_zero n)
  · rw [same, enough b (Nat.le_of_lt_succ suffices')]
    rfl

/-- A run that ends at a breakpoint is stopped by one of the breakpoints of its session. -/
theorem run_halts_at {budget : Nat} {h : Halt} {t : Session}
    (ends : run listener limit? budget s = some (.ok h, t)) (halted : h.breakpoint? ≠ none) :
    ∃ b ∈ s.debugger.breakpoints, b.Stops s.machine h.steps := by
  rw [run_eq, Option.map_eq_some_iff] at ends
  obtain ⟨⟨r, u⟩, goes, same⟩ := ends
  obtain rfl : r = .ok h := congrArg Prod.fst same
  by_cases within : Within limit? 0
  · rcases runFrom_cases (s := s.started) rfl within budget with turns | ⟨_, none⟩ | ⟨b, _, turns⟩
    · rw [turns] at goes
      exact advance_halts_at (s := s) (k := 0) (d := s.started.debugger) goes halted
    · rw [none] at goes
      cases goes
    · rw [turns] at goes
      exact advance_halts_at (s := s) (k := 0) (d := s.started.debugger) goes halted
  · rw [runFrom_of_not_within within] at goes
    split at goes
    · cases goes
    · cases goes
      exact absurd rfl halted

/-- A run whose limit is zero or less does nothing. -/
theorem run_of_not_within (reached : ¬ Within limit? 0) {budget : Nat} (positive : 0 < budget) :
    run listener limit? budget s = some (.ok ⟨0, none⟩, s.ended) := by
  rw [run_eq, runFrom_of_not_within reached, if_neg (Nat.ne_of_gt positive)]
  rfl

/-- A run ends after the first number of steps for which a stop is due. -/
theorem run_of_due (within : Within limit? 0) (succeeds : s.machine.Succeeds n)
    (due : s.Due listener limit? n) (free : ∀ k < n, ¬ s.Due listener limit? k) :
    ∃ h d, h.steps = n ∧ d.breakpoints = s.debugger.breakpoints ∧ ∀ budget > n,
      run listener limit? budget s = some (.ok h, ended ⟨s.machine.afterSteps n, d⟩) := by
  obtain ⟨k, rfl⟩ := due.exists_succ
  obtain ⟨d, going, within', turns⟩ := advance_steps (underway_started s) within
    (fun j below => succeeds j (Nat.lt_succ_of_lt below))
    fun j upTo => free j (Nat.lt_succ_of_le upTo)
  obtain ⟨snapshot, success⟩ := succeeds k (Nat.lt_succ_self k)
  obtain ⟨h, d', final, steps, kept⟩ := advance_of_due going within' success due
  refine ⟨h, d', steps, kept, fun budget large => run_of_advance within (n := k + 1) ?_ large⟩
  intro budget
  rw [← Nat.add_assoc, Nat.add_right_comm]
  exact (turns _).trans (final budget)

/-- A run in which no stop is due before a step fails ends with the fault. -/
theorem run_of_fault (within : Within limit? 0) (succeeds : s.machine.Succeeds n)
    (free : ∀ k ≤ n, ¬ s.Due listener limit? k) {e : Fault}
    (fault : (Machine.step (s.machine.afterSteps n)).1 = .error e) :
    ∃ d, d.breakpoints = s.debugger.breakpoints ∧ ∀ budget > n,
      run listener limit? budget s =
        some (.error e, ended ⟨s.machine.afterSteps (n + 1), d⟩) := by
  obtain ⟨d, going, _, turns⟩ := advance_steps (underway_started s) within succeeds free
  obtain ⟨d', final, kept⟩ := advance_of_fault going fault
  exact ⟨d', kept, fun budget large =>
    run_of_advance within (fun budget => (turns budget).trans (final budget)) large⟩

/-- A run in which no step fails and no stop is ever due does not end. -/
theorem run_eq_none (within : Within limit? 0)
    (forever : ∀ n, s.machine.Succeeds n ∧ ¬ s.Due listener limit? n) (budget : Nat) :
    run listener limit? budget s = none := by
  have endless (b : Nat) : advance listener limit? b 0 s.started = none := by
    obtain ⟨d, going, within', turns⟩ := advance_steps (n := b) (underway_started s) within
      (forever b).1 fun k _ => (forever k).2
    obtain ⟨snapshot, success⟩ := (forever (b + 1)).1 b (Nat.lt_succ_self b)
    obtain ⟨_, _, _, exhausted, _⟩ := advance_of_not_due going within' success (forever (b + 1)).2
    have all := turns 0
    rw [Nat.zero_add] at all
    exact all.trans exhausted
  rw [run_eq]
  rcases runFrom_cases (s := s.started) rfl within budget with same | ⟨_, none⟩ | ⟨b, _, same⟩
  · rw [same, endless budget]
    rfl
  · rw [none]
    rfl
  · rw [same, endless b]
    rfl

/-- A run stops exactly where it is due to. With a limit of zero or less it does nothing. Otherwise
it makes plain steps of the machine up to the least number after which the limit is reached, a
breakpoint is hit or stands at the program counter, or the listener asked for a stop; a breakpoint
at its start is passed over. If a step fails before, its fault is the outcome of the run, and if
neither ever happens the run does not end. -/
theorem run_stops_exactly (listener : Listener) (limit? : Option Int) (s : Session) :
    (∀ l, limit? = some l → l ≤ 0 → ∀ budget > 0,
      run listener limit? budget s = some (.ok ⟨0, none⟩, s.ended)) ∧
    ((∀ l, limit? = some l → 0 < l) →
      (∀ n, IsLeast {n | s.machine.Succeeds n ∧ s.Due listener limit? n} n →
        ∃ h d, h.steps = n ∧ d.breakpoints = s.debugger.breakpoints ∧ ∀ budget > n,
          run listener limit? budget s = some (.ok h, ended ⟨s.machine.afterSteps n, d⟩)) ∧
      (∀ n e, s.machine.Succeeds n → (∀ k ≤ n, ¬ s.Due listener limit? k) →
        (Machine.step (s.machine.afterSteps n)).1 = .error e →
        ∃ d, d.breakpoints = s.debugger.breakpoints ∧ ∀ budget > n,
          run listener limit? budget s =
            some (.error e, ended ⟨s.machine.afterSteps (n + 1), d⟩)) ∧
      ((∀ n, s.machine.Succeeds n ∧ ¬ s.Due listener limit? n) →
        ∀ budget, run listener limit? budget s = none)) := by
  refine ⟨fun l limited reached budget positive => ?_, fun within => ⟨?_, ?_, ?_⟩⟩
  · exact run_of_not_within (fun within => absurd (within l limited) (Int.not_lt.mpr reached))
      positive
  · rintro n ⟨⟨succeeds, due⟩, least⟩
    refine run_of_due within succeeds due fun k below early => ?_
    have := least ⟨fun j earlier => succeeds j (Nat.lt_trans earlier below), early⟩
    exact absurd below (Nat.not_lt.mpr this)
  · intro n e succeeds free fault
    exact run_of_fault within succeeds free fault
  · exact run_eq_none within

/-- A program that jumps back to its start. -/
def loop : Machine := ofImage [0x00, 0xE0, 0x10, 0x00] (Nat.zero_lt_succ 3)

/-- A session for it with a breakpoint at the start. -/
def looping : Session := ⟨loop, (Debugger.create loop.cpu).add (.onPc 0)⟩

/-- A run of it passes over the breakpoint at first and stops there after one turn of the loop. -/
theorem looping_stops_after_one_turn :
    IsLeast {n | loop.Succeeds n ∧ looping.Due ⟨fun _ => false⟩ (some 5) n} 2 ∧
      ∃ h d, h.steps = 2 ∧ run ⟨fun _ => false⟩ (some 5) 3 looping =
        some (.ok h, ended ⟨loop.afterSteps 2, d⟩) := by
  have least : IsLeast {n | loop.Succeeds n ∧ looping.Due ⟨fun _ => false⟩ (some 5) n} 2 := by
    refine ⟨⟨fun k below => ?_,
      .breakpoint (List.mem_singleton.mpr rfl) (.pc (Breakpoint.atPc_onPc 0))⟩, ?_⟩
    · match k, below with
      | 0, _ => exact ⟨_, rfl⟩
      | 1, _ => exact ⟨_, rfl⟩
    · rintro n ⟨_, due⟩
      by_contra below
      obtain rfl : n = 1 := by
        obtain ⟨_, rfl⟩ := due.exists_succ
        omega
      cases due with
      | limit reached => exact absurd reached (by decide)
      | breakpoint mem stops =>
          obtain rfl := List.mem_singleton.mp mem
          cases stops with
          | hit _ hits => obtain ⟨_, read | write | value | change⟩ := hits <;> contradiction
          | pc stands => exact absurd stands.value (by decide)
      | request interrupts =>
          obtain ⟨_, _, asks⟩ := interrupts
          cases asks
  obtain ⟨h, d, steps, _, ends⟩ :=
    ((run_stops_exactly ⟨fun _ => false⟩ (some 5) looping).2 (by rintro l ⟨⟩; decide)).1 2 least
  exact ⟨least, h, d, steps, ends 3 (by decide)⟩

end Session

end Chip8
