import Chip8.Instruction.Decode

/-!
Which words stand for which instruction: decoding is the inverse of the table `Encodes`
(`decode?_eq_some_iff`).
-/

namespace Chip8.Instruction

open Word

/-- Whether a word encodes an instruction: its group, what selects within the group, and the
operands. -/
def Encodes (w : Int) : Instruction → Prop
  | .clear => (group w).val = 0x0 ∧ (low w).val = 0x0
  | .ret => (group w).val = 0x0 ∧ (low w).val = 0xE
  | .jump t => (group w).val = 0x1 ∧ t = target w
  | .call t => (group w).val = 0x2 ∧ t = target w
  | .skipIfByte r b => (group w).val = 0x3 ∧ r = x w ∧ b = byte w
  | .skipUnlessByte r b => (group w).val = 0x4 ∧ r = x w ∧ b = byte w
  | .skipIfEqual r s => (group w).val = 0x5 ∧ r = x w ∧ s = y w
  | .loadByte r b => (group w).val = 0x6 ∧ r = x w ∧ b = byte w
  | .addByte r b => (group w).val = 0x7 ∧ r = x w ∧ b = byte w
  | .copy r s => (group w).val = 0x8 ∧ (low w).val = 0x0 ∧ r = x w ∧ s = y w
  | .or r s => (group w).val = 0x8 ∧ (low w).val = 0x1 ∧ r = x w ∧ s = y w
  | .and r s => (group w).val = 0x8 ∧ (low w).val = 0x2 ∧ r = x w ∧ s = y w
  | .xor r s => (group w).val = 0x8 ∧ (low w).val = 0x3 ∧ r = x w ∧ s = y w
  | .add r s => (group w).val = 0x8 ∧ (low w).val = 0x4 ∧ r = x w ∧ s = y w
  | .sub r s => (group w).val = 0x8 ∧ (low w).val = 0x5 ∧ r = x w ∧ s = y w
  | .shiftRight r => (group w).val = 0x8 ∧ (low w).val = 0x6 ∧ r = x w
  | .subFrom r s => (group w).val = 0x8 ∧ (low w).val = 0x7 ∧ r = x w ∧ s = y w
  | .shiftLeft r => (group w).val = 0x8 ∧ (low w).val = 0xE ∧ r = x w
  | .skipUnlessEqual r s => (group w).val = 0x9 ∧ r = x w ∧ s = y w
  | .loadIndex t => (group w).val = 0xA ∧ t = target w
  | .jumpOffset t => (group w).val = 0xB ∧ t = target w
  | .random r b => (group w).val = 0xC ∧ r = x w ∧ b = byte w
  | .draw r s n => (group w).val = 0xD ∧ r = x w ∧ s = y w ∧ n = low w
  | .skipIfKey r => (group w).val = 0xE ∧ byte w = 0x9E ∧ r = x w
  | .skipUnlessKey r => (group w).val = 0xE ∧ byte w = 0xA1 ∧ r = x w
  | .readDelay r => (group w).val = 0xF ∧ byte w = 0x07 ∧ r = x w
  | .awaitKey r => (group w).val = 0xF ∧ byte w = 0x0A ∧ r = x w
  | .setDelay r => (group w).val = 0xF ∧ byte w = 0x15 ∧ r = x w
  | .setSound r => (group w).val = 0xF ∧ byte w = 0x18 ∧ r = x w
  | .addIndex r => (group w).val = 0xF ∧ byte w = 0x1E ∧ r = x w
  | .loadGlyph r => (group w).val = 0xF ∧ byte w = 0x29 ∧ r = x w
  | .storeDecimal r => (group w).val = 0xF ∧ byte w = 0x33 ∧ r = x w
  | .storeRegisters r => (group w).val = 0xF ∧ byte w = 0x55 ∧ r = x w
  | .loadRegisters r => (group w).val = 0xF ∧ byte w = 0x65 ∧ r = x w

variable {w : Int} {i : Instruction}

theorem encodes_of_decodeSystem (g : (group w).val = 0x0) (h : decodeSystem w = some i) :
    i.Encodes w := by
  unfold decodeSystem at h
  split at h <;> cases h <;> exact ⟨g, ‹_›⟩

theorem encodes_of_decodeArithmetic (g : (group w).val = 0x8) (h : decodeArithmetic w = some i) :
    i.Encodes w := by
  unfold decodeArithmetic at h
  split at h <;> cases h <;> refine ⟨g, ‹_›, ?_⟩ <;> simp

theorem encodes_of_decodeKey (g : (group w).val = 0xE) (h : decodeKey w = some i) :
    i.Encodes w := by
  unfold decodeKey at h
  split at h <;> cases h <;> exact ⟨g, UInt8.toNat_inj.mp ‹_›, rfl⟩

theorem encodes_of_decodeTransfer (g : (group w).val = 0xF) (h : decodeTransfer w = some i) :
    i.Encodes w := by
  unfold decodeTransfer at h
  split at h <;> cases h <;> exact ⟨g, UInt8.toNat_inj.mp ‹_›, rfl⟩

/-- A word that decodes to an instruction encodes it. -/
theorem encodes_of_decode? (h : decode? w = some i) : i.Encodes w := by
  cases e : group w with
  | mk k hk =>
      have g : (group w).val = k := congrArg Fin.val e
      simp only [decode?, g] at h
      match k, hk with
      | 0x0, _ => exact encodes_of_decodeSystem g h
      | 0x8, _ => exact encodes_of_decodeArithmetic g h
      | 0xE, _ => exact encodes_of_decodeKey g h
      | 0xF, _ => exact encodes_of_decodeTransfer g h
      | 0x1, _ | 0x2, _ | 0xA, _ | 0xB, _ =>
          cases h
          exact ⟨g, rfl⟩
      | 0x3, _ | 0x4, _ | 0x5, _ | 0x6, _ | 0x7, _ | 0x9, _ | 0xC, _ =>
          cases h
          exact ⟨g, rfl, rfl⟩
      | 0xD, _ =>
          cases h
          exact ⟨g, rfl, rfl, rfl⟩
      | _ + 16, _ => omega

/-- Every word that encodes an instruction decodes to it, and no other does. -/
theorem decode?_eq_some_iff : decode? w = some i ↔ i.Encodes w := by
  constructor
  · exact encodes_of_decode?
  · intro h
    cases i <;> simp only [Encodes] at h <;>
      simp only [decode?, decodeSystem, decodeArithmetic, decodeKey, decodeTransfer, h] <;> rfl

end Chip8.Instruction
