import Chip8.Debugger

/-!
What breakpoints stop on.

`Breakpoint.AtPc` and `Breakpoint.Hit` say when a breakpoint stops a run: at a program counter, or
for what a step did. The debugger's tests decide them (`stopsAt_iff`, `stopsAfter_iff`).
-/

namespace Chip8

namespace Breakpoint

/-- A breakpoint that stops a run at a program counter. -/
structure AtPc (b : Breakpoint) (pc : Int) : Prop where
  enabled : b.enabled = true
  watch : b.watch = .pcMatch
  value : b.value? = some pc

/-- An enabled breakpoint on a program counter. -/
def onPc (pc : Int) : Breakpoint := ⟨.pcMatch, some pc, none, none, true⟩

theorem atPc_onPc (pc : Int) : (onPc pc).AtPc pc := ⟨rfl, rfl, rfl⟩

/-- What a step with a log, and with registers before and after it, does that a breakpoint watches
for. -/
inductive Occurs (b : Breakpoint) (log : Array Access) (before after : Cpu) : Prop where
  | read {a v : Int} : b.watch = .memoryRead → b.address? = some a → ⟨.read, a, v⟩ ∈ log →
      Occurs b log before after
  | write {a v : Int} : b.watch = .memoryWrite → b.address? = some a → ⟨.write, a, v⟩ ∈ log →
      Occurs b log before after
  | value {name : String} {v : Int} : b.watch = .registerValue → b.register? = some name →
      after.register? name = some v → b.value? = some v → Occurs b log before after
  | change {name : String} {v w : Int} : b.watch = .registerChange → b.register? = some name →
      before.register? name = some v → after.register? name = some w → v ≠ w →
      Occurs b log before after

/-- A breakpoint that stops a run after a step. -/
structure Hit (b : Breakpoint) (log : Array Access) (before after : Cpu) : Prop where
  enabled : b.enabled = true
  occurs : b.Occurs log before after

variable {b : Breakpoint} {log : Array Access} {before after : Cpu} {pc : Int}

/-- What it takes for a breakpoint to stop a run before a step. -/
theorem matchesPc_iff : b.matchesPc pc = true ↔ b.AtPc pc := by
  simp only [matchesPc, Bool.and_eq_true, beq_iff_eq]
  constructor
  · rintro ⟨⟨enabled, watch⟩, value⟩
    exact ⟨enabled, watch, value⟩
  · rintro ⟨enabled, watch, value⟩
    exact ⟨⟨enabled, watch⟩, value⟩

theorem touched_iff {kind : AccessKind} {address? : Option Int} :
    touched log kind address? = true ↔ ∃ a v, address? = some a ∧ ⟨kind, a, v⟩ ∈ log := by
  simp only [touched, Array.any_eq_true', Bool.and_eq_true, beq_iff_eq]
  constructor
  · rintro ⟨⟨_, a, v⟩, mem, rfl, address⟩
    exact ⟨a, v, address, mem⟩
  · rintro ⟨a, v, address, mem⟩
    exact ⟨_, mem, rfl, address⟩

/-- The debugger's test of a breakpoint after a step finds exactly what the breakpoint watches
for. -/
theorem matchesStep_iff : b.matchesStep log before after = true ↔ b.Hit log before after := by
  rw [matchesStep, Bool.and_eq_true]
  constructor
  · rintro ⟨enabled, matched⟩
    refine ⟨enabled, ?_⟩
    cases watch : b.watch with
    | pcMatch =>
        rw [watch] at matched
        cases matched
    | memoryRead =>
        rw [watch] at matched
        obtain ⟨a, v, address, mem⟩ := touched_iff.mp matched
        exact .read watch address mem
    | memoryWrite =>
        rw [watch] at matched
        obtain ⟨a, v, address, mem⟩ := touched_iff.mp matched
        exact .write watch address mem
    | registerValue =>
        simp only [watch] at matched
        cases found : b.register?.bind after.register? with
        | none =>
            rw [found] at matched
            cases matched
        | some v =>
            rw [found] at matched
            obtain ⟨name, register, value⟩ := Option.bind_eq_some_iff.mp found
            exact .value watch register value (beq_iff_eq.mp matched)
    | registerChange =>
        simp only [watch] at matched
        cases old : b.register?.bind before.register? with
        | none =>
            rw [old] at matched
            cases matched
        | some v =>
            cases new : b.register?.bind after.register? with
            | none =>
                rw [old, new] at matched
                cases matched
            | some w =>
                rw [old, new] at matched
                obtain ⟨name, register, value⟩ := Option.bind_eq_some_iff.mp old
                rw [register, Option.bind_some] at new
                exact .change watch register value new (bne_iff_ne.mp matched)
  · rintro ⟨enabled, occurs⟩
    refine ⟨enabled, ?_⟩
    cases occurs with
    | read watch address mem => simp only [watch, touched_iff.mpr ⟨_, _, address, mem⟩]
    | write watch address mem => simp only [watch, touched_iff.mpr ⟨_, _, address, mem⟩]
    | value watch register here value => simp [watch, register, here, value]
    | change watch register old new differ => simp [watch, register, old, new, differ]

end Breakpoint

namespace Debugger

variable {d : Debugger}

/-- A run stops before a step if one of the breakpoints stops it there. -/
theorem stopsAt_iff {pc : Int} : d.stopsAt pc = true ↔ ∃ b ∈ d.breakpoints, b.AtPc pc := by
  simp only [stopsAt, List.any_eq_true, Breakpoint.matchesPc_iff]

/-- A run stops after a step if one of the breakpoints is hit by it. -/
theorem stopsAfter_iff {log : Array Access} {after : Cpu} :
    d.stopsAfter log after = true ↔ ∃ b ∈ d.breakpoints, b.Hit log d.before after := by
  simp only [stopsAfter, List.any_eq_true, Breakpoint.matchesStep_iff]

end Debugger

end Chip8
