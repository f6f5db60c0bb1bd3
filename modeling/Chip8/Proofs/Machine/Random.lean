import Chip8.Proofs.Debugger.Course
import Chip8.Proofs.Machine.Executing

/-!
Random values in the course of events.

Each successful Cxkk takes the next value of the random source, and nothing else takes one
(`random_step`). So the values of the source are used in order, without gaps and without repeats,
across faults, resets and runs of the debugger (`random_values_used_in_order`).
-/

namespace Chip8

namespace RandomSource

theorem after_after (source : RandomSource) (k n : Nat) :
    (source.after k).after n = source.after (k + n) := by
  induction k generalizing source with
  | zero => rw [Nat.zero_add]; rfl
  | succ k ih => rw [Nat.succ_add]; exact ih source.draw.2

/-- The values after some draws are those that were next. -/
theorem value_after (source : RandomSource) (k n : Nat) :
    (source.after k).value n = source.value (k + n) := by
  rw [value, value, after_after]

theorem after_sequence (value : Nat → Int) (place n : Nat) :
    (sequence value place).after n = sequence value (place + n) := by
  induction n generalizing place with
  | zero => rfl
  | succ n ih => exact (ih (place + 1)).trans (by rw [Nat.add_assoc, Nat.add_comm 1 n])

end RandomSource

namespace Instruction

open Machine

/-- An instruction that is not Cxkk draws no random value. -/
theorem random_execute {i : Instruction} (other : ∀ x mask, i ≠ .random x mask) (m : Machine) :
    (i.execute m).2.random = m.random := by
  have closed := Attempt.closed_leads (R := fun m m' : Machine => m'.random = m.random)
    (fun _ => rfl) fun before after => after.trans before
  cases i with
  | random x mask => exact absurd rfl (other x mask)
  | draw x y rows =>
      exact drawSprite_of_closed closed (fun _ => rfl) (fun _ _ => rfl) (fun _ _ _ _ => rfl)
        (fun _ _ => rfl) x y rows.val m
  | loadRegisters x =>
      exact loadRegisters_of_closed closed (fun _ _ => rfl) m.cpu.i (x.val + 1) 0
        (fun _ _ _ _ => rfl) m
  | awaitKey x => rw [execute, awaitKey_apply]
  | _ => rfl

end Instruction

open Word

/-- Whether a step executed a Cxkk. -/
def Snapshot.isDraw (s : Snapshot) : Bool := (group s.operation.word).val = 0xC

/-- The steps among those shown that executed a Cxkk. -/
def draws (shown : List Snapshot) : List Snapshot := shown.filter Snapshot.isDraw

/-- The byte of an integer under a mask. -/
def maskedByte (r : Int) (mask : UInt8) : Int := ((r % 256).toNat &&& mask.toNat : Nat)

theorem isByte_maskedByte (r : Int) (mask : UInt8) : IsByte (maskedByte r mask) :=
  isByte_ofNat (Nat.lt_of_le_of_lt Nat.and_le_right mask.toNat_lt)

/-- A mask leaves none of the bits outside of it. -/
theorem testBit_of_testBit_maskedByte {r : Int} {mask : UInt8} {bit : Nat}
    (set : (maskedByte r mask).toNat.testBit bit = true) : mask.toNat.testBit bit = true := by
  rw [maskedByte, Int.toNat_natCast, Nat.testBit_and, Bool.and_eq_true] at set
  exact set.2

/-- The steps shown drew the first values of a source, each of them one and in order, and have left
the rest of it. Each has stored its value, reduced to a byte and masked. -/
structure Accounts (source : RandomSource) (shown : List Snapshot) (rest : RandomSource) : Prop where
  rest : rest = source.after (draws shown).length
  stored : ∀ j s, (draws shown)[j]? = some s →
    s.cpu.reg (x s.operation.word) = maskedByte (source.value j) (byte s.operation.word)

variable {source rest last : RandomSource} {shown more : List Snapshot}

theorem accounts_of_no_draws (none : draws shown = []) : Accounts source shown source := by
  constructor
  · rw [none]
    rfl
  · intro j s shows
    rw [none] at shows
    cases shows

theorem Accounts.append (first : Accounts source shown rest) (second : Accounts rest more last) :
    Accounts source (shown ++ more) last := by
  have all : draws (shown ++ more) = draws shown ++ draws more := List.filter_append ..
  constructor
  · rw [all, List.length_append, ← RandomSource.after_after, ← first.rest]
    exact second.rest
  · intro j s shows
    rw [all] at shows
    rcases Nat.lt_or_ge j (draws shown).length with before | behind
    · rw [List.getElem?_append_left before] at shows
      exact first.stored j s shows
    · rw [List.getElem?_append_right behind] at shows
      rw [second.stored _ s shows, first.rest, RandomSource.value_after, Nat.add_sub_cancel' behind]

namespace Machine

variable {m : Machine} {w : Int}

/-! ### One step -/

/-- A step that fetches a Cxkk succeeds, takes the next random value and stores it. -/
theorem step_of_draw (fetches : m.Fetches w) (draw : (group w).val = 0xC) :
    ∃ s, (step m).1 = .ok s ∧ s.operation.word = w ∧
      s.cpu.reg (x w) = maskedByte m.random.draw.1 (byte w) ∧
      (step m).2.random = m.random.draw.2 := by
  have encoded : (Instruction.random (x w) (byte w)).Encodes w := ⟨draw, rfl, rfl⟩
  rw [step_of_word fetches.running fetches.word,
    execute_ofWord (Instruction.decode?_eq_some_iff.mpr encoded)]
  exact ⟨_, rfl, rfl, (Cpu.reg_setReg _ (x w) (x w) _).trans (if_pos rfl), rfl⟩

/-- A step that does not fetch a Cxkk takes no random value. -/
theorem random_step_of_free (free : ∀ w, m.Fetches w → (group w).val ≠ 0xC) :
    (step m).2.random = m.random := by
  refine step_keeps Machine.random (fun _ => rfl) (fun _ _ _ _ => rfl) (fun _ _ => rfl) ?_
  intro w i running word decoded
  apply i.random_execute
  rintro x mask rfl
  exact free w ⟨running, word⟩ (Instruction.decode?_eq_some_iff.mp decoded).1

/-- A step that does not fetch a Cxkk shows none. -/
theorem draws_step_of_free (free : ∀ w, m.Fetches w → (group w).val ≠ 0xC) :
    draws (step m).1.toOption.toList = [] := by
  cases stepped : step m with
  | mk result m' =>
      cases result with
      | error e => rfl
      | ok s =>
          exact List.filter_cons_of_neg fun draw =>
            free _ (fetches_of_success stepped) (of_decide_eq_true draw)

/-- A step draws once if it executes a draw, and otherwise not at all. -/
theorem accounts_step (m : Machine) :
    Accounts m.random (step m).1.toOption.toList (step m).2.random := by
  by_cases draw : ∃ w, m.Fetches w ∧ (group w).val = 0xC
  · obtain ⟨w, fetches, draw⟩ := draw
    obtain ⟨s, success, rfl, stored, taken⟩ := step_of_draw fetches draw
    have shown : draws [s] = [s] := List.filter_cons_of_pos (decide_eq_true draw)
    rw [success, taken]
    constructor
    · exact congrArg (fun shown => m.random.after shown.length) shown.symm
    · intro j s' shows
      have first : [s][j]? = some s' := shown ▸ shows
      cases j with
      | zero =>
          cases first
          exact stored
      | succ j => cases first
  · have free : ∀ w, m.Fetches w → (group w).val ≠ 0xC := fun w fetches group =>
      draw ⟨w, fetches, group⟩
    rw [random_step_of_free free]
    exact accounts_of_no_draws (draws_step_of_free free)

/-! ### Runs -/

/-- Along any run of events the draws shown account for the random values that were used. -/
theorem accounts_undergoAll (m : Machine) (events : List Event) :
    Accounts m.random (m.successes events) (m.undergoAll events).random := by
  fun_induction successes m events with
  | case1 m => exact accounts_of_no_draws rfl
  | case2 m events ih => exact (accounts_step m).append ih
  | case3 m e events noStep ih => exact (undergo_past_step noStep).1 ▸ ih

/-- Random values are neither lost nor used twice. Whatever is done with a machine and a debugger,
with steps that succeed or fail, ticks, resets and runs of the debugger, the instructions Cxkk that
are executed with success take the values of the random source in order, each of them one, and
nothing else takes any. The value of number `j` is stored as the byte `r j` mod 256 under the mask
kk, which is a byte with no bit outside of kk. -/
theorem random_values_used_in_order (m : Machine) (d : Debugger) (r : Nat → Int)
    {shown : List Snapshot} {t : Session}
    (course : Session.Course ⟨{ m with random := .sequence r 0 }, d⟩ shown t) :
    t.machine.random = .sequence r (draws shown).length ∧
    ∀ j s, (draws shown)[j]? = some s →
      let kk := byte s.operation.word
      let value := s.cpu.reg (x s.operation.word)
      value = maskedByte (r j) kk ∧ IsByte value ∧
        ∀ bit, value.toNat.testBit bit = true → kk.toNat.testBit bit = true := by
  obtain ⟨events, machine, rfl⟩ := course.exists_events
  have accounts := accounts_undergoAll { m with random := .sequence r 0 } events
  constructor
  · rw [machine, accounts.rest, RandomSource.after_sequence, Nat.zero_add]
  · intro j s shows kk value
    have given : (RandomSource.sequence r 0).value j = r j := by
      rw [RandomSource.value, RandomSource.after_sequence, Nat.zero_add]
      rfl
    have stored : value = maskedByte (r j) kk := given ▸ accounts.stored j s shows
    rw [stored]
    exact ⟨rfl, isByte_maskedByte (r j) kk, fun bit => testBit_of_testBit_maskedByte⟩

/-- A machine that draws a random value and keeps its four lowest bits, from a source of negative
values. -/
def drawing : Machine :=
  { ofImage [0xC1, 0x0F] (by decide) with random := .sequence (fun j => -1 - j) 0 }

/-- The first value is used by a step, and after a reset the second one by a run of the debugger. -/
theorem drawing_goes_on_after_reset : ∃ s s' t,
    Session.Course ⟨drawing, Debugger.create drawing.cpu⟩ [s, s'] t ∧
      t.machine.random = .sequence (fun j => -1 - j) 2 ∧ s.cpu.reg 1 = 15 ∧ s'.cpu.reg 1 = 14 := by
  have started := Session.Course.start (s := ⟨drawing, Debugger.create drawing.cpu⟩)
  have reset := (started.step ⟨fun _ => false⟩).event (.action .reset)
  have course := reset.run (show Session.run ⟨fun _ => false⟩ (some 1) 2 _ = some (_, _) from rfl)
  obtain ⟨place, values⟩ := random_values_used_in_order _ _ _ course
  exact ⟨_, _, _, course, place, (values 0 _ rfl).1, (values 1 _ rfl).1⟩

end Machine

end Chip8
