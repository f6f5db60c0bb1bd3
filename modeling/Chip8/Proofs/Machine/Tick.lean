import Mathlib.Logic.Function.Iterate
import Chip8.Proofs.Machine.Event
import Chip8.Proofs.Machine.Record

/-!
Ticks of the timers among the steps of the processor.

An instruction other than the three that read or set a timer does not tell a machine from itself a
tick later (`timeless_execute`), and so neither does a step that does not fetch one of them, whether
it succeeds or fails (`step_tick`). Ticks therefore move past such steps, and past all that happens
besides: how many they are has an effect, but not where they fall (`ticks_commute_with_steps`).
-/

namespace Chip8

namespace Cpu

variable (c : Cpu)

theorem skipIf_tick (p : Bool) : c.tick.skipIf p = (c.skipIf p).tick := by
  cases p <;> rfl

theorem call_tick (t : Target) : call t c.tick = ((call t c).1, (call t c).2.tick) := by
  have sp : c.tick.sp = c.sp := rfl
  simp only [call, sp]
  split
  · rfl
  · cases slot? c.sp <;> rfl

theorem ret_tick : ret c.tick = ((ret c).1, (ret c).2.tick) := by
  have sp : c.tick.sp = c.sp := rfl
  simp only [ret, sp]
  split
  · rfl
  · cases slot? (c.sp - 1) <;> rfl

end Cpu

namespace Machine

/-- A machine and the same machine a tick later. -/
def Ticked (m m' : Machine) : Prop := m' = m.tick

/-- An action that does not see the timers: a tick before it has the same effect as one after it. -/
abbrev Timeless {α : Type} (x : Attempt Machine α) : Prop := x.Respects Ticked

variable {α : Type}

theorem Timeless.tick {x : Attempt Machine α} (h : Timeless x) (m : Machine) :
    x m.tick = ((x m).1, (x m).2.tick) := by
  obtain ⟨answers, after⟩ := h m m.tick rfl
  exact Prod.ext answers.symm after

theorem closed_timeless : Attempt.Closed Timeless := Attempt.closed_respects

/-! ### The parts of instructions -/

theorem timeless_onBus (act : Attempt Bus α) : Timeless (onBus act) := by
  rintro m _ rfl
  exact ⟨rfl, rfl⟩

theorem timeless_onDisplay (act : Display → α × Display) : Timeless (onDisplay act) := by
  rintro m _ rfl
  exact ⟨rfl, rfl⟩

theorem timeless_onCpu {act : Attempt Cpu α} (h : ∀ c, act c.tick = ((act c).1, (act c).2.tick)) :
    Timeless (onCpu act) := by
  rintro m _ rfl
  have ticked : act m.tick.cpu = ((act m.cpu).1, (act m.cpu).2.tick) := h m.cpu
  rw [onCpu_apply, onCpu_apply, ticked]
  exact ⟨rfl, rfl⟩

theorem timeless_setCpu {f : Cpu → Cpu} (h : ∀ c, f c.tick = (f c).tick) : Timeless (setCpu f) :=
  timeless_onCpu fun c => congrArg (Prod.mk (Except.ok ())) (h c)

theorem timeless_onKeypad (f : Keypad → Except Fault Keypad) : Timeless (onKeypad f) := by
  rintro m _ rfl
  have keypad : m.tick.keypad = m.keypad := rfl
  rw [onKeypad, onKeypad, keypad]
  cases f m.keypad with
  | ok keypad => exact ⟨rfl, rfl⟩
  | error e => exact ⟨rfl, rfl⟩

theorem timeless_drawRandom : Timeless drawRandom := by
  rintro m _ rfl
  exact ⟨rfl, rfl⟩

theorem timeless_view {f : Machine → α} (untimed : ∀ m, f m.tick = f m) :
    Timeless (Attempt.view f) := by
  rintro m _ rfl
  exact ⟨congrArg Except.ok (untimed m).symm, rfl⟩

/-- Looking at the registers does no harm where the timers among them are not used. -/
theorem timeless_cpu_bind {f : Cpu → Attempt Machine α} (untimed : ∀ c, f c.tick = f c)
    (h : ∀ c, Timeless (f c)) : Timeless (Attempt.view Machine.cpu >>= f) := by
  rintro m _ rfl
  have looked : (Attempt.view Machine.cpu >>= f) m.tick = f m.cpu m.tick :=
    congrFun (untimed m.cpu) m.tick
  rw [looked]
  exact h m.cpu m m.tick rfl

theorem timeless_drawSprite (x y : Register) (rows : Nat) : Timeless (drawSprite x y rows) := by
  refine timeless_cpu_bind (fun _ => rfl) fun c => ?_
  refine closed_timeless.bind (drawRows_of_closed closed_timeless ?_ ?_ _ _ _ rows 0 false) ?_
  · exact fun a => timeless_onBus _
  · exact fun x y bits => timeless_onDisplay _
  · exact fun hit => timeless_setCpu fun c => rfl

theorem timeless_loadRegisters (address : Int) (count k : Nat) :
    Timeless (loadRegisters address count k) :=
  loadRegisters_of_closed closed_timeless (fun _ => timeless_onBus _) address count k
    fun _ _ _ => timeless_setCpu fun _ => rfl

theorem timeless_awaitKey (x : Register) : Timeless (awaitKey x) := by
  refine closed_timeless.bind (timeless_view fun _ => rfl) fun keypad => ?_
  cases keypad.lowest? with
  | some k => exact timeless_setCpu fun _ => rfl
  | none => exact timeless_setCpu fun _ => rfl

end Machine

/-! ### Instructions -/

namespace Instruction

open Machine

def UsesTimers : Instruction → Prop
  | .readDelay _ | .setDelay _ | .setSound _ => True
  | _ => False

/-- An instruction that neither reads nor sets a timer does not see a tick. -/
theorem timeless_execute {i : Instruction} (free : ¬ i.UsesTimers) : Timeless i.execute := by
  cases i with
  | readDelay _ | setDelay _ | setSound _ => exact absurd trivial free
  | clear => exact timeless_onDisplay _
  | ret => exact timeless_onCpu Cpu.ret_tick
  | call t => exact timeless_onCpu fun c => c.call_tick t
  | skipIfByte x b => exact timeless_setCpu fun c => c.skipIf_tick _
  | skipUnlessByte x b => exact timeless_setCpu fun c => c.skipIf_tick _
  | skipIfEqual x y => exact timeless_setCpu fun c => c.skipIf_tick _
  | skipUnlessEqual x y => exact timeless_setCpu fun c => c.skipIf_tick _
  | random x mask =>
      exact closed_timeless.bind timeless_drawRandom fun _ => timeless_setCpu fun _ => rfl
  | draw x y rows => exact timeless_drawSprite x y rows.val
  | skipIfKey x =>
      exact closed_timeless.bind (timeless_view fun _ => rfl) fun _ =>
        timeless_setCpu fun c => c.skipIf_tick _
  | skipUnlessKey x =>
      exact closed_timeless.bind (timeless_view fun _ => rfl) fun _ =>
        timeless_setCpu fun c => c.skipIf_tick _
  | awaitKey x => exact timeless_awaitKey x
  | loadGlyph x =>
      exact closed_timeless.bind (timeless_view fun _ => rfl) fun _ => timeless_setCpu fun _ => rfl
  | storeDecimal x => exact timeless_cpu_bind (fun _ => rfl) fun _ => timeless_onBus _
  | storeRegisters x => exact timeless_cpu_bind (fun _ => rfl) fun _ => timeless_onBus _
  | loadRegisters x => exact timeless_cpu_bind (fun _ => rfl) fun _ => timeless_loadRegisters _ _ _
  | _ => exact timeless_setCpu fun c => rfl

end Instruction

/-! ### Steps -/

def Word.UsesTimers (w : Int) : Prop :=
  (group w).val = 0xF ∧ (byte w = 0x07 ∨ byte w = 0x15 ∨ byte w = 0x18)

/-- The word of an instruction that uses timers is one of those that do. -/
theorem Instruction.Encodes.usesTimers {i : Instruction} {w : Int} (h : i.Encodes w)
    (uses : i.UsesTimers) : Word.UsesTimers w := by
  cases i with
  | readDelay _ => exact ⟨h.1, .inl h.2.1⟩
  | setDelay _ => exact ⟨h.1, .inr (.inl h.2.1)⟩
  | setSound _ => exact ⟨h.1, .inr (.inr h.2.1)⟩
  | _ => cases uses

/-- What a step shows if the timers ticked before it. -/
def Snapshot.tick (s : Snapshot) : Snapshot := { s with cpu := s.cpu.tick }

namespace Machine

variable {m : Machine}

/-- Whether the next step fetches a word that stands for an instruction that reads or sets a
timer. -/
def UsesTimers (m : Machine) : Prop := ∃ w, m.Fetches w ∧ Word.UsesTimers w

/-- A tick has no influence on what is fetched. -/
theorem fetches_tick_iff {w : Int} : m.tick.Fetches w ↔ m.Fetches w :=
  ⟨fun h => ⟨h.running, h.word⟩, fun h => ⟨h.running, h.word⟩⟩

theorem usesTimers_tick_iff : m.tick.UsesTimers ↔ m.UsesTimers :=
  exists_congr fun _ => and_congr_left fun _ => fetches_tick_iff

theorem not_usesTimers_of_word {w : Int} (word : m.bus.wordAt? m.cpu.pc = .ok w)
    (free : ¬ Word.UsesTimers w) : ¬ m.UsesTimers := by
  rintro ⟨w', fetches, uses⟩
  have same : Except.ok w' = Except.ok (ε := Fault) w := fetches.word.symm.trans word
  cases same
  exact free uses

theorem timeless_operation {w : Int} (free : ¬ Word.UsesTimers w) :
    Timeless (Operation.ofWord w).execute := by
  cases decoded : Instruction.decode? w with
  | some i =>
      have encoded := Instruction.decode?_eq_some_iff.mp decoded
      rw [execute_ofWord decoded]
      exact Instruction.timeless_execute fun uses => free (encoded.usesTimers uses)
  | none =>
      rintro m _ rfl
      simp only [Operation.execute, Operation.ofWord, decoded]
      exact ⟨rfl, rfl⟩

/-- A tick before a step has the same effect as one after it, whether the step succeeds or fails. -/
theorem step_tick (free : ¬ m.UsesTimers) :
    step m.tick = ((step m).1.map Snapshot.tick, (step m).2.tick) := by
  cases running : m.cpu.halted with
  | true =>
      rw [step_of_halted running, step_of_halted (m := m.tick) running]
      rfl
  | false =>
      cases word : m.bus.wordAt? m.cpu.pc with
      | error e =>
          rw [step_of_fetch_fault running word, step_of_fetch_fault (m := m.tick) running word]
          cases e.halts <;> rfl
      | ok w =>
          have untimed : ¬ Word.UsesTimers w := fun uses => free ⟨w, ⟨running, word⟩, uses⟩
          have executed := (timeless_operation untimed).tick (m.dropLog.fetched w)
          have fetched : m.tick.dropLog.fetched w = (m.dropLog.fetched w).tick := rfl
          rw [step_of_word running word, step_of_word (m := m.tick) running word, fetched, executed]
          cases (Operation.ofWord w).execute (m.dropLog.fetched w) with
          | mk result m' =>
              cases result with
              | ok _ => rfl
              | error e =>
                  simp only
                  cases e.halts <;> rfl

/-! ### Runs -/

/-- None of the steps among events reads or sets a timer. -/
def Untimed (m : Machine) : List Event → Prop
  | [] => True
  | e :: events => (e = .action .step → ¬ m.UsesTimers) ∧ (m.undergo e).Untimed events

/-- An event that does not use the timers has the same effect before a tick and after it. -/
theorem undergo_tick {e : Event} (free : e = .action .step → ¬ m.UsesTimers) :
    m.tick.undergo e = (m.undergo e).tick := by
  cases e with
  | action a =>
      cases a with
      | step => exact congrArg Prod.snd (step_tick (free rfl))
      | press _ | release _ | releaseAll => exact congrArg Prod.snd ((timeless_onKeypad _).tick m)
      -- A reset among them: it sets the timers to zero, where a tick leaves them.
      | _ => rfl
  | _ => rfl

theorem untimed_tick_iff {events : List Event} : m.tick.Untimed events ↔ m.Untimed events := by
  induction events generalizing m with
  | nil => exact Iff.rfl
  | cons e events ih =>
      rw [Untimed, Untimed, usesTimers_tick_iff]
      refine and_congr_right fun free => ?_
      rw [undergo_tick free, ih]

/-- Ticks commute with events that do not use the timers. -/
theorem undergoAll_tick {events : List Event} (untimed : m.Untimed events) :
    m.tick.undergoAll events = (m.undergoAll events).tick := by
  induction events generalizing m with
  | nil => rfl
  | cons e events ih =>
      rw [undergoAll_cons, undergoAll_cons, undergo_tick untimed.1, ih untimed.2]

def ticksRemoved (events : List Event) : List Event := events.filter (· ≠ .action .tick)

def ticks (events : List Event) : Nat := events.count (.action .tick)

section Removal

variable (events : List Event)

theorem ticksRemoved_tick : ticksRemoved (.action .tick :: events) = ticksRemoved events :=
  List.filter_cons_of_neg (by decide)

theorem ticks_tick : ticks (.action .tick :: events) = ticks events + 1 := List.count_cons_self

theorem ticksRemoved_cons {e : Event} (other : e ≠ .action .tick) :
    ticksRemoved (e :: events) = e :: ticksRemoved events :=
  List.filter_cons_of_pos (decide_eq_true other)

theorem ticks_cons {e : Event} (other : e ≠ .action .tick) : ticks (e :: events) = ticks events :=
  List.count_cons_of_ne other

end Removal

/-- Whether steps use the timers does not depend on the ticks between them. -/
theorem untimed_ticksRemoved_iff {events : List Event} :
    m.Untimed (ticksRemoved events) ↔ m.Untimed events := by
  induction events generalizing m with
  | nil => exact Iff.rfl
  | cons e events ih =>
      by_cases isTick : e = .action .tick
      · subst isTick
        have later : m.Untimed (.action .tick :: events) ↔ m.tick.Untimed events :=
          and_iff_right nofun
        rw [ticksRemoved_tick, ih, later, untimed_tick_iff]
      · rw [ticksRemoved_cons events isTick, Untimed, Untimed, ih]

/-- All ticks can be put behind everything else. -/
theorem undergoAll_eq {events : List Event} (untimed : m.Untimed events) :
    m.undergoAll events = tick^[ticks events] (m.undergoAll (ticksRemoved events)) := by
  induction events generalizing m with
  | nil => rfl
  | cons e events ih =>
      by_cases isTick : e = .action .tick
      · subst isTick
        have untimed' : m.Untimed events := untimed_tick_iff.mp untimed.2
        rw [ticksRemoved_tick, ticks_tick, Function.iterate_succ_apply', ← ih untimed']
        exact undergoAll_tick untimed'
      · rw [ticksRemoved_cons events isTick, ticks_cons events isTick]
        exact ih untimed.2

/-- A tick before a step that does not fetch an instruction on the timers has the same effect as one
after it, whether the step succeeds, fails or finds the processor halted. So runs of events with no
such instruction that differ only in where the timers tick among the other events leave the same
machine. -/
theorem ticks_commute_with_steps (m : Machine) :
    (¬ m.UsesTimers → step m.tick = ((step m).1.map Snapshot.tick, (step m).2.tick)) ∧
    ∀ events events', m.Untimed events → ticksRemoved events = ticksRemoved events' →
      ticks events = ticks events' → m.undergoAll events = m.undergoAll events' := by
  refine ⟨step_tick, fun events events' untimed others count => ?_⟩
  have untimed' : m.Untimed events' := by
    rwa [← untimed_ticksRemoved_iff, ← others, untimed_ticksRemoved_iff]
  rw [undergoAll_eq untimed, undergoAll_eq untimed', others, count]

/-- A machine with its delay timer running and a program that clears the display twice. -/
def clearingTwice : Machine :=
  { ofImage [0x00, 0xE0, 0x00, 0xE0] (by decide) with cpu := { Cpu.initial 0 with delay := 3 } }

theorem clearingTwice_untimed : clearingTwice.Untimed [.action .step, .action .step] := by
  have free : ¬ Word.UsesTimers 0x00E0 := by
    rintro ⟨group, _⟩
    exact absurd group (by decide)
  refine ⟨fun _ => ?_, fun _ => ?_, trivial⟩
  · exact not_usesTimers_of_word (w := 0x00E0) rfl free
  · exact not_usesTimers_of_word (w := 0x00E0) rfl free

/-- Two ticks, before and between the steps or behind them, leave the same machine. -/
theorem ticks_among_clears :
    step clearingTwice.tick =
        ((step clearingTwice).1.map Snapshot.tick, (step clearingTwice).2.tick) ∧
      clearingTwice.undergoAll [.action .tick, .action .step, .action .tick, .action .step] =
        clearingTwice.undergoAll [.action .step, .action .step, .action .tick, .action .tick] := by
  have untimed := clearingTwice_untimed
  obtain ⟨one, all⟩ := ticks_commute_with_steps clearingTwice
  refine ⟨one (untimed.1 rfl), all _ _ (untimed_ticksRemoved_iff.mp untimed) ?_ ?_⟩
  · decide
  · decide

end Machine

end Chip8
