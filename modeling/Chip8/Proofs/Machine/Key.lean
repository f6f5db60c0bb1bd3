import Mathlib.Data.List.Induction
import Chip8.Proofs.Config.Width
import Chip8.Proofs.Machine.Event
import Chip8.Proofs.Machine.Executing
import Chip8.Proofs.Machine.Successor

/-!
The keys in the course of events.

A key is down exactly if the last event that concerns it presses it (`isDown_undergoAll_iff`):
steps, resets and all that happens besides leave the keypad alone, and so does the number of no key,
which is refused. The instructions that look at the keypad act on the keys that are down by this
history (`key_history_decides`).
-/

namespace Chip8.Machine

open Word

variable {m : Machine} {w : Int} {k : Fin 16}

/-! ### The keypad -/

/-- Compositions leave the keypad alone. -/
theorem Composed.keypad {α : Type} {x : Attempt Machine α} (h : Composed x) :
    x.Leads fun m m' => m'.keypad = m.keypad := by
  induction h with
  | bind _ _ first rest => exact first.bind rest fun before after => after.trans before
  | _ => exact fun _ => rfl

/-- No instruction touches the keypad. -/
theorem keypad_step (m : Machine) : (step m).2.keypad = m.keypad :=
  step_keeps Machine.keypad (fun _ => rfl) (fun _ _ _ _ => rfl) (fun _ _ => rfl)
    fun w i _ _ _ => (composed_execute i).keypad (m.dropLog.fetched w)

theorem perform_press (m : Machine) (k : Fin 16) :
    m.perform (.press k.val) = { m with keypad := m.keypad.put k true } := by
  simp only [perform, onKeypad, Keypad.press?_key]

theorem perform_release (m : Machine) (k : Fin 16) :
    m.perform (.release k.val) = { m with keypad := m.keypad.put k false } := by
  simp only [perform, onKeypad, Keypad.release?_key]

section Refused

variable {n : Int} (outside : ¬ (0 ≤ n ∧ n < 16))

include outside

/-- Pressing what is no key fails and changes nothing. -/
theorem press_of_not_key (m : Machine) :
    onKeypad (·.press? n) m = (.error (.badKey n), m) := by
  simp only [onKeypad, Keypad.press?_of_not_key outside]

theorem release_of_not_key (m : Machine) :
    onKeypad (·.release? n) m = (.error (.badKey n), m) := by
  simp only [onKeypad, Keypad.release?_of_not_key outside]

end Refused

/-! ### The history of a key -/

def Event.concerns (k : Fin 16) : Event → Bool
  | .action (.press n) | .action (.release n) => n = k.val
  | .action .releaseAll => true
  | _ => false

/-- The last event that concerns a key presses it. -/
def PressedLast (k : Fin 16) (events : List Event) : Prop :=
  (events.filter (Event.concerns k)).getLast? = some (.action (.press k.val))

instance (k : Fin 16) (events : List Event) : Decidable (PressedLast k events) :=
  inferInstanceAs (Decidable (_ = _))

theorem pressedLast_concat_of_concerns {e : Event} (concerns : e.concerns k) (events : List Event) :
    PressedLast k (events ++ [e]) ↔ e = .action (.press k.val) := by
  rw [PressedLast, List.filter_append, List.filter_cons_of_pos concerns, List.filter_nil,
    List.getLast?_concat, Option.some.injEq]

/-- An event that does not concern a key does not change which event was the last to do so. -/
theorem pressedLast_concat_of_not_concerns {e : Event} (other : ¬ e.concerns k)
    (events : List Event) : PressedLast k (events ++ [e]) ↔ PressedLast k events := by
  rw [PressedLast, List.filter_append, List.filter_cons_of_neg other, List.filter_nil,
    List.append_nil]
  rfl

/-- Putting another key up or down leaves a key as it is, and so does the number of no key. -/
theorem isDown_onKeypad {f : Keypad → Int → Except Fault Keypad} {isDown : Bool} {n : Int}
    (puts : ∀ j : Fin 16, f m.keypad j.val = .ok (m.keypad.put j isDown))
    (refuses : ¬ (0 ≤ n ∧ n < 16) → f m.keypad n = .error (.badKey n)) (other : n ≠ k.val) :
    (onKeypad (f · n) m).2.keypad.isDown k = m.keypad.isDown k := by
  rcases Keypad.key_cases n with ⟨j, rfl⟩ | outside
  · have apart : j ≠ k := fun same => other (congrArg (fun k : Fin 16 => (k.val : Int)) same)
    simp only [onKeypad, puts, Keypad.isDown_put, if_neg apart]
  · simp only [onKeypad, refuses outside]

/-- What does not concern a key leaves it up or down. -/
theorem isDown_undergo_of_not_concerns {e : Event} (other : ¬ e.concerns k) :
    (m.undergo e).keypad.isDown k = m.keypad.isDown k := by
  cases e with
  | action a =>
      cases a with
      | step => exact congrArg (Keypad.isDown · k) (keypad_step m)
      | press n =>
          exact isDown_onKeypad m.keypad.press?_key Keypad.press?_of_not_key fun same =>
            other (decide_eq_true same)
      | release n =>
          exact isDown_onKeypad m.keypad.release?_key Keypad.release?_of_not_key fun same =>
            other (decide_eq_true same)
      | releaseAll => exact absurd rfl other
      | _ => rfl
  | _ => rfl

/-- What concerns a key leaves it down if it presses it, and else up. -/
theorem isDown_undergo_of_concerns {e : Event} (concerns : e.concerns k) :
    (m.undergo e).keypad.isDown k = true ↔ e = .action (.press k.val) := by
  cases e with
  | action a =>
      cases a with
      | press n =>
          obtain rfl : n = k.val := of_decide_eq_true concerns
          rw [undergo, perform_press]
          exact iff_of_true ((Keypad.isDown_put m.keypad k k true).trans (if_pos rfl)) rfl
      | release n =>
          obtain rfl : n = k.val := of_decide_eq_true concerns
          have up := (Keypad.isDown_put m.keypad k k false).trans (if_pos rfl)
          rw [undergo, perform_release]
          exact iff_of_false (ne_true_of_eq_false up) (by rintro ⟨⟩)
      | releaseAll =>
          exact iff_of_false (ne_true_of_eq_false (Keypad.isDown_released k)) (by rintro ⟨⟩)
      | _ => cases concerns
  | _ => cases concerns

/-- From a keypad with all keys up, a key is down after events exactly if it was pressed last. -/
theorem isDown_undergoAll_iff (up : ∀ k, m.keypad.isDown k = false) (events : List Event) :
    (m.undergoAll events).keypad.isDown k = true ↔ PressedLast k events := by
  induction events using List.reverseRecOn with
  | nil => exact iff_of_false (ne_true_of_eq_false (up k)) (by rintro ⟨⟩)
  | append_singleton events e ih =>
      rw [undergoAll_append]
      by_cases concerns : e.concerns k
      · rw [pressedLast_concat_of_concerns concerns]
        exact isDown_undergo_of_concerns concerns
      · rw [pressedLast_concat_of_not_concerns concerns, ← ih]
        exact Bool.eq_iff_iff.mp (isDown_undergo_of_not_concerns concerns)

/-! ### The instructions that look at the keypad -/

/-- The lowest four bits of a register are the number of a key. -/
theorem lowest_bits_lt (m : Machine) (r : Register) : (m.cpu.reg r % 16).toNat < 16 := by
  omega

/-- The key that a register names by its lowest four bits. -/
def namedKey (m : Machine) (r : Register) : Fin 16 :=
  ⟨(m.cpu.reg r % 16).toNat, lowest_bits_lt m r⟩

/-- The processor after a word that skips the next one if a condition holds. -/
def skipping (m : Machine) (w : Int) (p : Prop) [Decidable p] : Cpu :=
  { m.cpu with word := w, pc := (m.cpu.pc + if p then 4 else 2) % 65536 }

theorem skipIf_fetched (m : Machine) (w : Int) {b : Bool} {p : Prop} [Decidable p]
    (h : b = true ↔ p) : (m.dropLog.fetched w).cpu.skipIf b = m.skipping w p := by
  by_cases holds : p
  · have again : ((m.cpu.pc + 2) % 65536 + 2) % 65536 = (m.cpu.pc + 4) % 65536 := by omega
    rw [h.mpr holds, skipping, if_pos holds, ← again]
    rfl
  · rw [Bool.eq_false_iff.mpr (holds ∘ h.mp), skipping, if_neg holds]
    rfl

/-- Four addresses on in 16 bits are never two, so the program counter tells whether a word was
skipped. -/
theorem pc_skipping_iff (m : Machine) (w : Int) (p : Prop) [Decidable p] :
    (m.skipping w p).pc = (m.cpu.pc + 4) % 65536 ↔ p := by
  by_cases holds : p
  · rw [skipping, if_pos holds]
    exact iff_of_true rfl holds
  · have behind : (m.cpu.pc + 2) % 65536 ≠ (m.cpu.pc + 4) % 65536 := by omega
    rw [skipping, if_neg holds]
    exact iff_of_false behind holds

section Fetched

variable {r : Register} (fetches : m.Fetches w)

include fetches

/-- Ex9E skips the next word if the named key is down. -/
theorem step_of_skipIfKey (encoded : (Instruction.skipIfKey r).Encodes w) {p : Prop} [Decidable p]
    (down : m.keypad.isDown (m.namedKey r) = true ↔ p) :
    ∃ s, step m = (.ok s, m.proceed (m.skipping w p)) := by
  rw [← skipIf_fetched m w down]
  exact ⟨_, step_of_cpu fetches encoded rfl⟩

/-- ExA1 skips the next word if the named key is up. -/
theorem step_of_skipUnlessKey (encoded : (Instruction.skipUnlessKey r).Encodes w) {p : Prop}
    [Decidable p] (down : m.keypad.isDown (m.namedKey r) = true ↔ p) :
    ∃ s, step m = (.ok s, m.proceed (m.skipping w (¬ p))) := by
  have up : (!m.keypad.isDown (m.namedKey r)) = true ↔ ¬ p := by
    rw [Bool.not_eq_true', ← Bool.not_eq_true, down]
  rw [← skipIf_fetched m w up]
  exact ⟨_, step_of_cpu fetches encoded rfl⟩

/-- Fx0A loads the lowest key that is down. -/
theorem step_of_awaitKey_down (encoded : (Instruction.awaitKey r).Encodes w)
    (lowest : m.keypad.lowest? = some k) :
    ∃ s, step m = (.ok s, m.proceed
      (Cpu.setReg { m.cpu with word := w, pc := (m.cpu.pc + 2) % 65536 } r k.val)) := by
  have keypad : (m.dropLog.fetched w).keypad = m.keypad := rfl
  refine ⟨_, step_of_cpu fetches encoded ?_⟩
  rw [Instruction.execute, awaitKey_apply, keypad, lowest]
  rfl

/-- Fx0A with all keys up takes back what the fetch added to the program counter. -/
theorem step_of_awaitKey_up (encoded : (Instruction.awaitKey r).Encodes w)
    (lowest : m.keypad.lowest? = none) :
    ∃ s, step m = (.ok s, m.proceed { m.cpu with word := w, pc := m.cpu.pc % 65536 }) := by
  have keypad : (m.dropLog.fetched w).keypad = m.keypad := rfl
  have back : ((m.cpu.pc + 2) % 65536 + -2) % 65536 = m.cpu.pc % 65536 := by omega
  refine ⟨_, step_of_cpu fetches encoded ?_⟩
  rw [Instruction.execute, awaitKey_apply, keypad, lowest, ← back]
  rfl

end Fetched

/-- The next step leaves the program counter behind the word after the one that it executes. -/
def SkipsNext (m : Machine) : Prop := (step m).2.cpu.pc = (m.cpu.pc + 4) % 65536

/-- With either of the two skips in memory, and the same state apart from that, one of them skips
and the other does not. -/
theorem skipsNext_iff_not_skipsNext {memory memory' : Bus} {w' : Int} {r : Register}
    (fetches : { m with bus := memory }.Fetches w) (encoded : (Instruction.skipIfKey r).Encodes w)
    (fetches' : { m with bus := memory' }.Fetches w')
    (encoded' : (Instruction.skipUnlessKey r).Encodes w') :
    { m with bus := memory }.SkipsNext ↔ ¬ { m with bus := memory' }.SkipsNext := by
  obtain ⟨_, stepped⟩ := step_of_skipIfKey fetches encoded Iff.rfl
  obtain ⟨_, stepped'⟩ := step_of_skipUnlessKey fetches' encoded' Iff.rfl
  rw [SkipsNext, SkipsNext, stepped, stepped']
  exact (pc_skipping_iff _ w _).trans (not_not.symm.trans (not_congr (pc_skipping_iff _ w' _).symm))

/-- Where all keys were up, what was pressed and released since decides everything about keys. A
number that is no key is refused and changes nothing. A key is down exactly if it was pressed last.
Ex9E skips exactly if this holds of the key that it names, and ExA1 exactly if it does not; in the
same state but for the memory exactly one of them skips. Fx0A loads the least of the keys that were
pressed last. If there is none it stays at its word, provided that the program counter is a machine
word: it takes back what the fetch added, and the fetch reduced the sum to 16 bits. -/
theorem key_history_decides (up : ∀ k, m.keypad.isDown k = false) (events : List Event) :
    let n := m.undergoAll events
    (∀ k : Int, ¬ (0 ≤ k ∧ k < 16) → ∃ e : Fault, e.kind = .badValue ∧
      onKeypad (·.press? k) n = (.error e, n) ∧ onKeypad (·.release? k) n = (.error e, n)) ∧
    (∀ k, n.keypad.isDown k = true ↔ PressedLast k events) ∧
    (∀ w r, n.Fetches w → (Instruction.skipIfKey r).Encodes w →
      ∃ s, step n = (.ok s, n.proceed (n.skipping w (PressedLast (n.namedKey r) events)))) ∧
    (∀ w r, n.Fetches w → (Instruction.skipUnlessKey r).Encodes w →
      ∃ s, step n = (.ok s, n.proceed (n.skipping w (¬ PressedLast (n.namedKey r) events)))) ∧
    (∀ memory memory' w w' r, { n with bus := memory }.Fetches w →
      (Instruction.skipIfKey r).Encodes w → { n with bus := memory' }.Fetches w' →
      (Instruction.skipUnlessKey r).Encodes w' →
      ({ n with bus := memory }.SkipsNext ↔ ¬ { n with bus := memory' }.SkipsNext)) ∧
    (∀ w r, n.Fetches w → (Instruction.awaitKey r).Encodes w → ∃ s n', step n = (.ok s, n') ∧
      ((∃ k, IsLeast {k | PressedLast k events} k ∧ n' = n.proceed
          (Cpu.setReg { n.cpu with word := w, pc := (n.cpu.pc + 2) % 65536 } r k.val)) ∨
        (∀ k, ¬ PressedLast k events) ∧
          n' = n.proceed { n.cpu with word := w, pc := n.cpu.pc % 65536 } ∧
          (n'.cpu.pc = n.cpu.pc ↔ IsWord n.cpu.pc))) := by
  intro n
  have down (k : Fin 16) : n.keypad.isDown k = true ↔ PressedLast k events :=
    isDown_undergoAll_iff up events
  have keys : {k | n.keypad.isDown k = true} = {k | PressedLast k events} := Set.ext down
  -- What is down is what was pressed last, and the steps only ask what is down.
  refine ⟨?_, down, ?_, ?_, ?_, ?_⟩
  · intro k outside
    exact ⟨.badKey k, rfl, press_of_not_key outside n, release_of_not_key outside n⟩
  · intro w r fetches encoded
    exact step_of_skipIfKey fetches encoded (down _)
  · intro w r fetches encoded
    exact step_of_skipUnlessKey fetches encoded (down _)
  · intro memory memory' w w' r fetches encoded fetches' encoded'
    exact skipsNext_iff_not_skipsNext fetches encoded fetches' encoded'
  · intro w r fetches encoded
    cases lowest : n.keypad.lowest? with
    | some k =>
        obtain ⟨s, stepped⟩ := step_of_awaitKey_down fetches encoded lowest
        have least := Keypad.lowest?_eq_some_iff.mp lowest
        rw [keys] at least
        exact ⟨s, _, stepped, .inl ⟨k, least, rfl⟩⟩
    | none =>
        obtain ⟨s, stepped⟩ := step_of_awaitKey_up fetches encoded lowest
        refine ⟨s, _, stepped, .inr ⟨fun k pressed => ?_, rfl, emod_eq_self_iff_isWord⟩⟩
        have released := Keypad.lowest?_eq_none_iff.mp lowest k
        rw [(down k).mpr pressed] at released
        cases released

/-- A key that was pressed makes the skip by it skip. The number of no key is refused, and a reset
does not release the key. -/
theorem pressed_key_skips_after_reset : ∃ s n',
    step ((ofImage [0xE3, 0x9E] (by decide)).undergoAll
      [.action (.press 0), .action (.press 16), .action .reset]) = (.ok s, n') ∧ n'.cpu.pc = 4 := by
  have up : ∀ k, (ofImage [0xE3, 0x9E] (by decide)).keypad.isDown k = false :=
    Keypad.isDown_released
  obtain ⟨_, _, skips, _⟩ := key_history_decides up
    [.action (.press 0), .action (.press 16), .action .reset]
  obtain ⟨s, stepped⟩ := skips 0xE39E 3 ⟨rfl, rfl⟩ ⟨rfl, rfl, rfl⟩
  exact ⟨s, _, stepped, rfl⟩

/-- With all keys up and a program counter of 17 bits, Fx0A does not stay at its word. -/
theorem wide_wait_leaves_its_word : ∃ m, Config.wide.build 0 = .ok m ∧
    let n := m.performAll (writing 0x10000 0xF00A)
    n.Fetches 0xF00A ∧ (∀ k, n.keypad.isDown k = false) ∧ n.cpu.pc = 0x10000 ∧
      ∃ s n', step n = (.ok s, n') ∧ n'.cpu.pc = 0 := by
  obtain ⟨m, built⟩ : ∃ m, Config.wide.build 0 = .ok m :=
    Config.exists_build 0 (by decide) (by decide) (by decide) (by decide) rfl
  obtain ⟨running, pc, up⟩ : m.cpu.halted = false ∧ m.cpu.pc = 0x10000 ∧
      ∀ k, m.keypad.isDown k = false := by
    obtain ⟨memory, display, cpu, _, _, _, _, initial, rfl⟩ := Config.build_eq_ok_iff.mp built
    exact ⟨Config.halted_initialCpu initial, Config.pc_initialCpu initial, Keypad.isDown_released⟩
  have backed := (Config.wellFormed_of_build built).backed
  have first : m.bus.location? m.cpu.pc = some ⟨0, 0x10000⟩ := by
    rw [pc]
    exact Config.location?_of_build built (by decide) (by decide)
  have second : m.bus.location? (m.cpu.pc + 1) = some ⟨0, 0x10001⟩ := by
    rw [pc]
    exact Config.location?_of_build built (by decide) (by decide)
  have fetches := fetches_writing backed running first second (by decide) (w := 0xF00A) (by decide)
  have written := performAll_writing backed (Bus.maps_iff.mpr ⟨_, first⟩)
    (Bus.maps_iff.mpr ⟨_, second⟩) (w := 0xF00A) (by decide)
  rw [pc] at fetches written
  have released : ∀ k, (m.performAll (writing 0x10000 0xF00A)).keypad.isDown k = false := by
    rw [written]
    exact up
  have start : (m.performAll (writing 0x10000 0xF00A)).cpu.pc = 0x10000 := by
    rw [written]
    exact pc
  obtain ⟨s, stepped⟩ := step_of_awaitKey_up (r := 0) fetches ⟨rfl, rfl, rfl⟩
    (Keypad.lowest?_eq_none_iff.mpr released)
  refine ⟨m, built, fetches, released, start, s, _, stepped, ?_⟩
  rw [proceed, start]
  rfl

end Chip8.Machine
