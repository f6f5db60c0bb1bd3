import Chip8.Machine.Execute
import Chip8.Proofs.Instruction.Field
import Chip8.Proofs.Instruction.Text

/-!
What operations are shown as, and what executing them does.

Executing an operation attempts its instruction, and reports its word where that stands for none
(`execute_eq_attempt`). Operations with the same text have the same effect on every machine
(`text_determines_effect`). The 16 lowest bits of an integer decide what it is decoded to, while word
and hexadecimal text show the integer itself (`decoding_exact`).
-/

namespace Chip8.Operation

open Instruction Word IntegerText

/-- Executes the instruction of an operation and tells whether there is one. -/
def attempt (o : Operation) : Attempt Machine Bool :=
  match o.instruction? with
  | some i => do
    i.execute
    return true
  | none => return false

/-- Reports the word of an operation with the address that it was fetched from. -/
def report (o : Operation) : Attempt Machine Unit :=
  Attempt.update fun m => { m with reports := m.reports ++ [⟨o.word, m.cpu.currentAddress⟩] }

/-- Executing an operation is attempting it, with a report where it has no instruction. -/
theorem execute_eq_attempt (o : Operation) :
    o.execute = o.attempt >>= fun known => if known then pure () else o.report := by
  unfold execute attempt
  funext m
  cases o.instruction? with
  | some i =>
      simp only [Attempt.bind_apply]
      cases i.execute m with
      | mk result m' => cases result <;> rfl
  | none => rfl

/-- An attempt answers that there is no instruction just if there is none. -/
theorem attempt_eq_false_iff (o : Operation) (m : Machine) :
    (o.attempt m).1 = .ok false ↔ o.instruction? = none := by
  unfold attempt
  cases o.instruction? with
  | some i =>
      simp only [Attempt.bind_apply, reduceCtorEq, iff_false]
      cases i.execute m with
      | mk result m' => cases result <;> simp
  | none => simp

/-- Operations with the same text have the same outcome on every machine: the same answer or fault,
and the same machine after it. What is reported of them is the same as well. -/
theorem text_determines_effect {w w' : Int} (same : (ofWord w).text = (ofWord w').text)
    (m : Machine) :
    (ofWord w).attempt m = (ofWord w').attempt m ∧
      (ofWord w).execute m = (ofWord w').execute m := by
  obtain ⟨instructions, words⟩ := eq_of_text_eq same
  have attempts : (ofWord w).attempt = (ofWord w').attempt := by
    unfold attempt
    rw [instructions]
  refine ⟨congrFun attempts m, ?_⟩
  rw [execute_eq_attempt, execute_eq_attempt, attempts, Attempt.bind_apply, Attempt.bind_apply]
  -- Only the report shows the word, and there the text does too.
  cases run : (ofWord w').attempt m with
  | mk result m' =>
      cases result with
      | error e => rfl
      | ok known =>
          cases known with
          | true => rfl
          | false =>
              have unknown := (attempt_eq_false_iff (ofWord w') m).mp (congrArg Prod.fst run)
              have word : w = w' := words (instructions.trans unknown)
              rw [word]

/-- Which second register a shift names has no effect, and no text shows it. -/
theorem ignored_register_without_effect :
    (ofWord 0x8106).text = (ofWord 0x8126).text ∧
      ∀ m, (ofWord 0x8106).attempt m = (ofWord 0x8126).attempt m := by
  have same : (ofWord 0x8106).text = (ofWord 0x8126).text := rfl
  exact ⟨same, fun m => (text_determines_effect same m).1⟩

/-- Of an integer the 16 lowest bits decide what it is decoded to. It is unknown just if they are
those of no instruction; else it encodes an instruction with the fields of the 16 bits, and mnemonic
and operands are those of this instruction and of the 16 bits. Its word is the integer itself, which
its hexadecimal text shows, and executing it answers that there is no instruction just if it is
unknown. -/
theorem decoding_exact (w : Int) :
    ((ofWord w).mnemonic = "UNKNOWN" ↔ IsHole (fieldsOf (w % 65536))) ∧
    ((ofWord w).mnemonic ≠ "UNKNOWN" →
      (ofWord w).mnemonic = (ofWord (w % 65536)).mnemonic ∧
      (ofWord w).operands = (ofWord (w % 65536)).operands ∧
      ∃ i : Instruction, i.Encodes w ∧ (ofWord w).mnemonic = i.mnemonic ∧
        (ofWord w).operands = i.operands) ∧
    fields w = fieldsOf (w % 65536) ∧ masked w = fieldsOf (w % 65536) ∧
    (ofWord w).word = w ∧ signedHex? (ofWord w).hexWord.toList = some w ∧
    ∀ m, ((ofWord w).attempt m).1 = .ok false ↔ (ofWord w).mnemonic = "UNKNOWN" := by
  have unknown : (ofWord w).mnemonic = "UNKNOWN" ↔ decode? w = none :=
    mnemonic_eq_unknown_iff (ofWord w)
  refine ⟨?_, ?_, fields_eq w, masked_eq w, rfl, signedHex?_hex 4 w, ?_⟩
  · rw [unknown, decode?_eq_none_iff, fields_eq]
  · intro known
    rw [Ne, unknown] at known
    obtain ⟨i, decoded⟩ := Option.ne_none_iff_exists'.mp known
    have decoded' : decode? (w % 65536) = some i := (decode?_emod w).trans decoded
    have encoded := decode?_eq_some_iff.mp decoded
    simp only [mnemonic, operands, ofWord, decoded, decoded', true_and]
    exact ⟨i, encoded, rfl, rfl⟩
  · intro m
    rw [attempt_eq_false_iff, mnemonic_eq_unknown_iff]

end Chip8.Operation
