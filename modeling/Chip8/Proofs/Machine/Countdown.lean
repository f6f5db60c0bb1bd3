import Chip8.Proofs.Machine.Event
import Chip8.Proofs.Machine.Executing
import Chip8.Proofs.Machine.Touch

/-!
The values of the timers in the course of events.

A timer counts down from the value that it was given last, by a reset or by an instruction, one for
each tick since and not below zero (`timers_count_down`). No other event touches it, not even a step
that fails: the one instruction that sets a timer cannot fail (`step_of_setter`).
-/

namespace Chip8

inductive Timer where
  | delay
  | sound
  deriving DecidableEq

namespace Timer

open Machine Word

def value (timer : Timer) (c : Cpu) : Int :=
  match timer with
  | .delay => c.delay
  | .sound => c.sound

def part : Timer → Part
  | .delay => .delay
  | .sound => .sound

/-- The lowest byte of the words that set a timer. -/
def setter : Timer → UInt8
  | .delay => 0x15
  | .sound => 0x18

/-- Whether a word sets a timer, which it does to the value of a register. -/
def IsSetBy (timer : Timer) (w : Int) : Prop := (group w).val = 0xF ∧ byte w = timer.setter

instance (timer : Timer) (w : Int) : Decidable (timer.IsSetBy w) :=
  inferInstanceAs (Decidable (_ ∧ _))

variable {timer : Timer} {m : Machine} {w : Int}

/-! ### One event -/

/-- An instruction that sets a timer succeeds. -/
theorem step_of_setter (fetches : m.Fetches w) (sets : timer.IsSetBy w) :
    ∃ s, (step m).1 = .ok s ∧ s.operation.word = w ∧
      timer.value (step m).2.cpu = m.cpu.reg (x w) := by
  cases timer with
  | delay =>
      have encoded : (Instruction.setDelay (x w)).Encodes w := ⟨sets.1, sets.2, rfl⟩
      rw [step_of_cpu fetches encoded rfl]
      exact ⟨_, rfl, rfl, rfl⟩
  | sound =>
      have encoded : (Instruction.setSound (x w)).Encodes w := ⟨sets.1, sets.2, rfl⟩
      rw [step_of_cpu fetches encoded rfl]
      exact ⟨_, rfl, rfl, rfl⟩

/-- A step that does not fetch such an instruction leaves the timer alone. -/
theorem value_step_of_free (nonneg : 0 ≤ m.cpu.sp) (free : ∀ w, m.Fetches w → ¬ timer.IsSetBy w) :
    timer.value (step m).2.cpu = timer.value m.cpu := by
  have untouched : timer.part.Same m (step m).2 := by
    apply within_step nonneg
    rintro (mark | ⟨w, fetches, touches⟩)
    · cases timer <;> cases mark
    · refine free w fetches ?_
      cases timer <;> exact touches
  cases timer <;> exact untouched

/-- What a tick does to a number that is not negative. -/
theorem tick_eq_max {v : Int} (nonneg : 0 ≤ v) : (if 0 < v then v - 1 else v) = max 0 (v - 1) := by
  split <;> omega

/-- A tick takes 1 off a timer that is not at zero. -/
theorem value_tick {c : Cpu} (nonneg : 0 ≤ timer.value c) :
    timer.value c.tick = max 0 (timer.value c - 1) := by
  cases timer <;> exact tick_eq_max nonneg

/-- The value that an event gives to a timer: a reset gives it zero, and a successful step whose
word sets it the value of the register. -/
def given? (timer : Timer) (m : Machine) : Event → Option Int
  | .action .reset => some 0
  | .action .step =>
    match (step m).1 with
    | .ok s =>
      if timer.IsSetBy s.operation.word then some (m.cpu.reg (x s.operation.word)) else none
    | .error _ => none
  | _ => none

/-- A step that executes a setter gives the timer the value of its register. -/
theorem given?_step_of_setter (fetches : m.Fetches w) (sets : timer.IsSetBy w) :
    timer.given? m (.action .step) = some (m.cpu.reg (x w)) := by
  obtain ⟨s, success, rfl, _⟩ := step_of_setter fetches sets
  simp only [given?, success, if_pos sets]

/-- Any other step gives the timer no value. -/
theorem given?_step_of_free (free : ∀ w, m.Fetches w → ¬ timer.IsSetBy w) :
    timer.given? m (.action .step) = none := by
  cases stepped : step m with
  | mk result m' =>
      cases result with
      | error e => simp only [given?, stepped]
      | ok s =>
          simp only [given?, stepped]
          exact if_neg (free _ (fetches_of_success stepped))

end Timer

/-! ### Runs -/

/-- The value that a timer was given last, and the ticks since then. -/
structure Countdown where
  start : Int
  ticks : Nat
  deriving DecidableEq, Repr

namespace Timer

open Machine

variable {timer : Timer} {m : Machine}

/-- A countdown brought up to date by an event. -/
def recount (timer : Timer) (c : Countdown) (m : Machine) (e : Event) : Countdown :=
  match timer.given? m e with
  | some d => ⟨d, 0⟩
  | none => if e = .action .tick then { c with ticks := c.ticks + 1 } else c

/-- The countdown of a timer after a run of events, if `c` is the one before it. -/
def countdown (timer : Timer) (c : Countdown) (m : Machine) : List Event → Countdown
  | [] => c
  | e :: events => countdown timer (timer.recount c m e) (m.undergo e) events

/-- A timer holds what is left of a countdown. -/
structure Follows (timer : Timer) (c : Countdown) (m : Machine) : Prop where
  start_nonneg : 0 ≤ c.start
  value_eq : timer.value m.cpu = max 0 (c.start - c.ticks)

variable {c : Countdown}

theorem follows_of_nonneg (nonneg : 0 ≤ timer.value m.cpu) :
    timer.Follows ⟨timer.value m.cpu, 0⟩ m := by
  refine ⟨nonneg, ?_⟩
  simp only
  omega

theorem Follows.step (h : timer.Follows c m) (sound : m.Sound) :
    timer.Follows (timer.recount c m (.action .step)) (step m).2 := by
  by_cases sets : ∃ w, m.Fetches w ∧ timer.IsSetBy w
  · obtain ⟨w, fetches, sets⟩ := sets
    obtain ⟨_, _, _, value⟩ := step_of_setter fetches sets
    rw [recount, given?_step_of_setter fetches sets, ← value]
    apply follows_of_nonneg
    rw [value]
    exact (sound.bounded.registers _).1
  · have free : ∀ w, m.Fetches w → ¬ timer.IsSetBy w := fun w fetches set => sets ⟨w, fetches, set⟩
    rw [recount, given?_step_of_free free]
    refine ⟨h.start_nonneg, ?_⟩
    rw [value_step_of_free sound.bounded.sp_nonneg free]
    exact h.value_eq

theorem Follows.tick (h : timer.Follows c m) :
    timer.Follows { c with ticks := c.ticks + 1 } m.tick := by
  refine ⟨h.start_nonneg, ?_⟩
  have before := h.value_eq
  have after : timer.value m.tick.cpu = max 0 (timer.value m.cpu - 1) := value_tick (by omega)
  simp only
  omega

/-- Whatever happens to a machine, its timer follows the countdown. -/
theorem Follows.undergo (h : timer.Follows c m) (sound : m.Sound) (e : Event) :
    timer.Follows (timer.recount c m e) (m.undergo e) := by
  cases e with
  | action a =>
      cases a with
      | step => exact h.step sound
      | tick => exact h.tick
      | reset => cases timer <;> exact ⟨Int.le_refl 0, rfl⟩
      | press _ | release _ | releaseAll =>
          obtain ⟨keypad, changed⟩ := onKeypad_snd _ m
          rw [Machine.undergo, perform, changed]
          exact ⟨h.start_nonneg, h.value_eq⟩
      | _ => exact ⟨h.start_nonneg, h.value_eq⟩
  | _ => exact ⟨h.start_nonneg, h.value_eq⟩

/-- Along any run of events a timer follows its countdown. -/
theorem Follows.undergoAll (h : timer.Follows c m) (sound : m.Sound) (events : List Event) :
    timer.Follows (timer.countdown c m events) (m.undergoAll events) := by
  induction events generalizing c m with
  | nil => exact h
  | cons e events ih => exact ih (h.undergo sound e) (sound.undergo e)

end Timer

namespace Machine

variable {config : Config} {seed : Int} {m : Machine}

/-- However a machine that was built is used, with random values from anywhere, each of its timers
holds the value that it was given last, at the start, by a reset or by the instruction that sets it,
less one for each tick since then, and not less than zero. The sound is on while its timer is not
zero. -/
theorem timers_count_down [Host] (built : config.build seed = .ok m) (source : RandomSource)
    (events : List Event) :
    let start := { m with random := source }
    let n := start.undergoAll events
    (∀ timer : Timer,
      let c := timer.countdown ⟨timer.value start.cpu, 0⟩ start events
      timer.value n.cpu = max 0 (c.start - c.ticks) ∧ 0 ≤ timer.value n.cpu) ∧
    (n.soundActive = true ↔ 0 < n.cpu.sound) := by
  intro start n
  have sound : start.Sound := { Sound.of_build built with }
  refine ⟨fun timer => ?_, decide_eq_true_iff⟩
  intro c
  have nonneg : 0 ≤ timer.value start.cpu := by
    cases timer with
    | delay => exact sound.bounded.delay.1
    | sound => exact sound.bounded.sound.1
  have holds : timer.value n.cpu = max 0 (c.start - c.ticks) :=
    ((Timer.follows_of_nonneg nonneg).undergoAll sound events).value_eq
  exact ⟨holds, by omega⟩

/-- A machine with memory for the font and two instructions, and a screen of one pixel. -/
def tiny : Config :=
  { Config.default with
    memorySize := 84, fontAddress := 0, programStart := 80, displayWidth := 1, displayHeight := 1 }

/-- A program that sets the delay timer to five and then runs into the end of memory, with ticks
among its steps. -/
def settingDelay : List Event :=
  [.action (.load [0x6F, 0x05, 0xFF, 0x15] 80), .action .step, .action .tick, .action .step,
    .action .tick, .action .step, .action .tick]

/-- The timer holds three after it, since two ticks came after it was set, one of them after a step
that failed. -/
theorem settingDelay_leaves_three : ∃ m, tiny.build 0 = .ok m ∧
    ({ m with random := .ofList [] }.undergoAll settingDelay).cpu.delay = 3 := by
  obtain ⟨m, built⟩ : ∃ m, tiny.build 0 = .ok m :=
    Config.exists_build 0 (by decide) (by decide) (by decide) (by decide) rfl
  have counts : (tiny.build 0).toOption.map (fun m =>
      Timer.delay.countdown ⟨Timer.delay.value m.cpu, 0⟩ { m with random := .ofList [] }
        settingDelay) = some ⟨5, 2⟩ := by
    decide +kernel
  rw [built] at counts
  have value := ((timers_count_down built (.ofList []) settingDelay).1 .delay).1
  simp only at value
  have counted : Timer.delay.countdown ⟨Timer.delay.value m.cpu, 0⟩
      { m with random := .ofList [] } settingDelay = ⟨5, 2⟩ := Option.some.inj counts
  rw [counted] at value
  exact ⟨m, built, value⟩

end Machine

end Chip8
