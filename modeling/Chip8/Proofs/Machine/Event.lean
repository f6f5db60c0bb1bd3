import Chip8.Proofs.Config.Build

/-!
Events: the actions on a machine, and what else can happen around its processor while it runs.
Devices of any kind are put on the bus, regions are registered for them, the picture is replaced.

A *sound* machine has a fitted bus and bounded registers. Every event keeps it sound
(`Sound.undergo`), so every machine that can come about is sound (`Reachable.sound`).
-/

namespace Chip8.Machine

/-- One thing that can happen to a machine or around it. -/
inductive Event where
  | action (a : Action)
  /-- Puts a device on the bus. -/
  | attach (d : Device)
  /-- Sends a range of addresses to a device. -/
  | register (first last : Int) (device : Nat)
  /-- Replaces the picture on the display. -/
  | redraw (screen : Display)
  deriving DecidableEq

def undergo (m : Machine) : Event → Machine
  | .action a => m.perform a
  | .attach d => { m with bus := m.bus.attach d }
  | .register first last device => (onBus (Bus.register first last device) m).2
  | .redraw screen => { m with display := screen }

def undergoAll (m : Machine) (events : List Event) : Machine := events.foldl undergo m

@[simp] theorem undergoAll_nil (m : Machine) : m.undergoAll [] = m := rfl

@[simp] theorem undergoAll_cons (m : Machine) (e : Event) (events : List Event) :
    m.undergoAll (e :: events) = (m.undergo e).undergoAll events := rfl

theorem undergoAll_append (m : Machine) (first rest : List Event) :
    m.undergoAll (first ++ rest) = (m.undergoAll first).undergoAll rest := List.foldl_append

variable {m : Machine} {e : Event}

/-- An event that is neither a step nor a reset changes of the processor at most the timers. -/
theorem undergo_aside (noStep : e ≠ .action .step) (noReset : e ≠ .action .reset) :
    (∃ delay sound, (m.undergo e).cpu = { m.cpu with delay := delay, sound := sound }) ∧
      (m.undergo e).cycles = m.cycles := by
  cases e with
  | action a =>
      cases a with
      | step => exact absurd rfl noStep
      | reset => exact absurd rfl noReset
      | press _ | release _ | releaseAll =>
          obtain ⟨keypad, changed⟩ := onKeypad_snd _ m
          rw [undergo, perform, changed]
          exact ⟨⟨m.cpu.delay, m.cpu.sound, rfl⟩, rfl⟩
      | _ => exact ⟨⟨_, _, rfl⟩, rfl⟩
  | _ => exact ⟨⟨m.cpu.delay, m.cpu.sound, rfl⟩, rfl⟩

/-- What is no step takes no random value and reports nothing. -/
theorem undergo_past_step (noStep : e ≠ .action .step) :
    (m.undergo e).random = m.random ∧ (m.undergo e).reports = m.reports := by
  cases e with
  | action a =>
      cases a with
      | step => exact absurd rfl noStep
      | press _ | release _ | releaseAll =>
          obtain ⟨keypad, changed⟩ := onKeypad_snd _ m
          rw [undergo, perform, changed]
          exact ⟨rfl, rfl⟩
      | _ => exact ⟨rfl, rfl⟩
  | _ => exact ⟨rfl, rfl⟩

theorem programStart_undergo (m : Machine) (e : Event) :
    (m.undergo e).programStart = m.programStart := by
  cases e with
  | action a => exact congrArg (·.2.1) (wiring_perform m a)
  | _ => rfl

theorem fontAddress_undergo (m : Machine) (e : Event) :
    (m.undergo e).fontAddress = m.fontAddress := by
  cases e with
  | action a => exact congrArg (·.1) (wiring_perform m a)
  | _ => rfl

theorem programStart_undergoAll (m : Machine) (events : List Event) :
    (m.undergoAll events).programStart = m.programStart := by
  induction events generalizing m with
  | nil => rfl
  | cons e events ih => exact (ih (m.undergo e)).trans (programStart_undergo m e)

/-! ### Sound machines -/

/-- The bus is fitted and the registers are bounded. -/
structure Sound (m : Machine) : Prop where
  fitted : m.bus.Fitted
  bounded : m.cpu.Bounded

/-- Every event leaves a sound machine sound. -/
theorem Sound.undergo (h : m.Sound) (e : Event) : (m.undergo e).Sound := by
  cases e with
  | action a =>
      exact ⟨h.fitted.of_shape (shape_perform m a), bounded_perform h.bounded a⟩
  | attach d => exact ⟨h.fitted.attach d, h.bounded⟩
  | register first last device => exact ⟨h.fitted.register first last device, h.bounded⟩
  | redraw screen => exact ⟨h.fitted, h.bounded⟩

/-- The machines that can come about: one that is switched on with nothing on its bus, or one that
is built from a configuration, with random values from anywhere, after any events. -/
inductive Reachable : Machine → Prop where
  | create (display : Display) (random : RandomSource) (fontAddress programStart : Int) :
      Reachable (Machine.create Bus.empty display random fontAddress programStart)
  | build [Host] {config : Config} {seed : Int} {m : Machine} (random : RandomSource) :
      config.build seed = .ok m → Reachable { m with random := random }
  | undergo {m : Machine} (e : Event) : Reachable m → Reachable (m.undergo e)

/-- A machine that was built from a configuration is sound. -/
theorem Sound.of_build [Host] {config : Config} {seed : Int} (built : config.build seed = .ok m) :
    m.Sound := by
  have wellFormed := Config.wellFormed_of_build built
  exact ⟨wellFormed.backed.fitted, wellFormed.bounded⟩

/-- Every machine that can be reached is sound. -/
theorem Reachable.sound (h : Reachable m) : m.Sound := by
  induction h with
  | create display random fontAddress programStart =>
      exact ⟨Bus.fitted_empty, Cpu.bounded_initial programStart⟩
  | build random built => exact { Sound.of_build built with }
  | undergo e _ ih => exact ih.undergo e

end Chip8.Machine
