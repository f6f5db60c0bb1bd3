import Chip8.Proofs.Machine.Key

/-!
Waiting for a key.

While all keys are up, a wait stays at its word: any number of steps leaves the machine as it was but
for the last word fetched, the count and the log (`performAll_waits`). Once keys are pressed, the
next step loads the least of them and goes on behind the word (`wait_stutters_until_pressed`).
-/

namespace Chip8.Machine

variable {m : Machine} {w : Int} {r : Register}

/-- A machine after some steps that stayed at a word. -/
def waiting (m : Machine) (w : Int) (steps : Nat) : Machine :=
  { m with cpu := { m.cpu with word := w }, cycles := m.cycles + steps, bus := m.bus.dropLog }

theorem fetches_waiting (fetches : m.Fetches w) (steps : Nat) : (m.waiting w steps).Fetches w :=
  ⟨fetches.running, fetches.word⟩

section Waits

variable (pc : IsWord m.cpu.pc) (fetches : m.Fetches w)
  (encoded : (Instruction.awaitKey r).Encodes w) (up : ∀ k, m.keypad.isDown k = false)

include pc fetches encoded up

/-- A wait with all keys up goes back to its word, also around the end of the addresses. -/
theorem step_waits : ∃ s, step m = (.ok s, m.waiting w 1) := by
  obtain ⟨s, stepped⟩ :=
    step_of_awaitKey_up fetches encoded (Keypad.lowest?_eq_none_iff.mpr up)
  rw [emod_eq_self_iff_isWord.mpr pc] at stepped
  exact ⟨s, stepped⟩

/-- So it does from wherever it has waited already. -/
theorem step_waiting (steps : Nat) :
    ∃ s, step (m.waiting w steps) = (.ok s, m.waiting w (steps + 1)) :=
  step_waits (m := m.waiting w steps) pc (fetches_waiting fetches steps) encoded up

/-- As long as no key is down, every step repeats the wait. -/
theorem performAll_waits (steps : Nat) :
    m.performAll (List.replicate (steps + 1) .step) = m.waiting w (steps + 1) := by
  induction steps with
  | zero =>
      obtain ⟨_, stepped⟩ := step_waits pc fetches encoded up
      exact congrArg Prod.snd stepped
  | succ steps ih =>
      obtain ⟨_, stepped⟩ := step_waiting pc fetches encoded up (steps + 1)
      rw [List.replicate_succ', performAll_append, ih]
      exact congrArg Prod.snd stepped

theorem succeeds_waiting (steps : Nat) :
    ∃ s, (step (m.performAll (List.replicate steps .step))).1 = .ok s := by
  cases steps with
  | zero =>
      obtain ⟨s, stepped⟩ := step_waits pc fetches encoded up
      exact ⟨s, congrArg Prod.fst stepped⟩
  | succ steps =>
      obtain ⟨s, stepped⟩ := step_waiting pc fetches encoded up (steps + 1)
      rw [performAll_waits pc fetches encoded up]
      exact ⟨s, congrArg Prod.fst stepped⟩

end Waits

/-- The machine after keys were pressed one after the other. -/
def pressing (m : Machine) (keys : List (Fin 16)) : Machine :=
  m.performAll (keys.map fun k => .press k.val)

/-- Presses put their keys down and do nothing else. -/
theorem exists_pressing_eq (m : Machine) (keys : List (Fin 16)) :
    ∃ keypad, m.pressing keys = { m with keypad := keypad } ∧
      ∀ k, keypad.isDown k = true ↔ k ∈ keys ∨ m.keypad.isDown k = true := by
  induction keys generalizing m with
  | nil => exact ⟨m.keypad, rfl, by simp⟩
  | cons key keys ih =>
      obtain ⟨keypad, pressed, down⟩ := ih (m.perform (.press key.val))
      rw [perform_press] at pressed down
      refine ⟨keypad, ?_, fun k => ?_⟩
      · rw [pressing, List.map_cons, performAll_cons, perform_press]
        exact pressed
      · rw [down, Keypad.isDown_put, List.mem_cons]
        by_cases here : key = k
        · simp [here]
        · simp [here, Ne.symm here]

/-- When keys are pressed, one or more, a wait loads the least of them and goes on. -/
theorem wait_ends (fetches : m.Fetches w) (encoded : (Instruction.awaitKey r).Encodes w)
    (up : ∀ k, m.keypad.isDown k = false) {keys : List (Fin 16)} (nonempty : keys ≠ []) :
    ∃ keypad least s, m.pressing keys = { m with keypad := keypad } ∧
      (∀ k, keypad.isDown k = true ↔ k ∈ keys) ∧ IsLeast {k | k ∈ keys} least ∧
      step (m.pressing keys) = (.ok s, (m.pressing keys).proceed
        (Cpu.setReg { m.cpu with word := w, pc := (m.cpu.pc + 2) % 65536 } r least.val)) := by
  obtain ⟨keypad, pressed, down⟩ := exists_pressing_eq m keys
  have held (k : Fin 16) : keypad.isDown k = true ↔ k ∈ keys := by
    rw [down, up]
    simp
  have same : {k | keypad.isDown k = true} = {k | k ∈ keys} := Set.ext held
  -- Some key is down, so there is a lowest one.
  obtain ⟨least, lowest⟩ : ∃ least, keypad.lowest? = some least := by
    rw [← Option.ne_none_iff_exists']
    intro none
    obtain ⟨key, mem⟩ := List.exists_mem_of_ne_nil keys nonempty
    have released := Keypad.lowest?_eq_none_iff.mp none key
    rw [(held key).mpr mem] at released
    cases released
  have first : IsLeast {k | k ∈ keys} least := same ▸ Keypad.lowest?_eq_some_iff.mp lowest
  have again : { m with keypad := keypad }.Fetches w := ⟨fetches.running, fetches.word⟩
  obtain ⟨s, stepped⟩ := step_of_awaitKey_down again encoded lowest
  rw [pressed]
  exact ⟨keypad, least, s, rfl, held, first, stepped⟩

/-- Waiting for a key is a stutter. Where the program counter is a machine word that leads to an
Fx0A and all keys are up, any number of steps succeeds and leaves the whole machine as it was, but
for the word, the count of cycles and the log, which is empty. When keys are pressed then, one or
more, the next step loads the least of them, goes on behind the word, around the end of the addresses
if need be, counts, and changes nothing else. -/
theorem wait_stutters_until_pressed (pc : IsWord m.cpu.pc) (fetches : m.Fetches w)
    (encoded : (Instruction.awaitKey r).Encodes w) (up : ∀ k, m.keypad.isDown k = false) {n : Nat}
    (positive : 0 < n) :
    let waited := m.performAll (List.replicate n .step)
    (∀ k < n, ∃ s, (step (m.performAll (List.replicate k .step))).1 = .ok s) ∧
    waited = { m with
      cpu := { m.cpu with word := w }
      cycles := m.cycles + n
      bus := m.bus.dropLog } ∧
    ∀ keys : List (Fin 16), keys ≠ [] → ∃ keypad least s,
      waited.pressing keys = { waited with keypad := keypad } ∧
      (∀ k, keypad.isDown k = true ↔ k ∈ keys) ∧ IsLeast {k | k ∈ keys} least ∧
      step (waited.pressing keys) = (.ok s, { waited.pressing keys with
        cpu := { waited.cpu.setReg r least.val with pc := (m.cpu.pc + 2) % 65536 }
        cycles := waited.cycles + 1 }) := by
  intro waited
  have stays : waited = m.waiting w n := by
    obtain ⟨steps, rfl⟩ := Nat.exists_eq_add_one.mpr positive
    exact performAll_waits pc fetches encoded up steps
  refine ⟨fun k _ => succeeds_waiting pc fetches encoded up k, stays, fun keys nonempty => ?_⟩
  obtain ⟨keypad, least, s, pressed, down, first, stepped⟩ :=
    wait_ends (fetches_waiting fetches n) encoded up nonempty
  rw [stays]
  refine ⟨keypad, least, s, pressed, down, first, stepped.trans ?_⟩
  rw [pressed]
  rfl

/-- After three steps of waiting, three keys are pressed, and the least of them is loaded. -/
theorem waiting_loads_least_key : ∃ s n',
    step (((ofImage [0xF5, 0x0A] (by decide)).performAll (List.replicate 3 .step)).pressing
      [9, 4, 12]) = (.ok s, n') ∧ n'.cpu.reg 5 = 4 ∧ n'.cpu.pc = 2 ∧ n'.cycles = 4 := by
  have fetches : (ofImage [0xF5, 0x0A] (by decide)).Fetches 0xF50A := ⟨rfl, rfl⟩
  obtain ⟨_, waited, ends⟩ := wait_stutters_until_pressed (r := 5) (by decide) fetches
    ⟨rfl, rfl, rfl⟩ Keypad.isDown_released (n := 3) (by decide)
  obtain ⟨keypad, least, s, pressed, _, first, stepped⟩ := ends [9, 4, 12] (List.cons_ne_nil 9 _)
  have below : ∀ k ∈ [9, 4, 12], (4 : Fin 16) ≤ k := by decide
  obtain rfl : least = 4 := first.unique ⟨List.mem_cons_of_mem 9 List.mem_cons_self, below⟩
  rw [pressed, waited] at stepped
  rw [pressed, waited]
  exact ⟨s, _, stepped, rfl, rfl, rfl⟩

end Chip8.Machine
