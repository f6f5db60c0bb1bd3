import Mathlib.Algebra.GroupWithZero.Nat
import Chip8.Bits
import Chip8.Proofs.Instruction.Decode

/-!
The fields of a word, and the words that stand for no instruction.

The fields that the decoder reads are those that masks and shifts take out of the word in two's
complement, and they are the fields of the word reduced to 16 bits (`masked_eq`, `fields_eq`). So
decoding sees no more of a word than its 16 lowest bits (`decode?_emod`), and the fields tell which
words stand for no instruction (`decode?_eq_none_iff`).
-/

namespace Chip8

/-! ### Masks -/

namespace Bits

theorem without_shiftRight (m n s : Nat) : without m n >>> s = without (m >>> s) (n >>> s) := by
  rw [without, without, Nat.shiftRight_xor_distrib, Nat.shiftRight_and_distrib]

theorem and_shiftRight (a b : Int) (s : Nat) : and a b >>> s = and (a >>> s) (b >>> s) := by
  cases a with
  | ofNat m =>
      cases b with
      | ofNat n => exact congrArg Int.ofNat Nat.shiftRight_and_distrib
      | negSucc n => exact congrArg Int.ofNat (without_shiftRight m n s)
  | negSucc m =>
      cases b with
      | ofNat n => exact congrArg Int.ofNat (without_shiftRight n m s)
      | negSucc n => exact congrArg Int.negSucc Nat.shiftRight_or_distrib

/-- The bits of a full mask that a number does not have are the complement of its remainder. -/
theorem mask_without (m n : Nat) : without (2 ^ n - 1) m = 2 ^ n - (m % 2 ^ n + 1) := by
  have below : m % 2 ^ n < 2 ^ n := Nat.mod_lt m (Nat.two_pow_pos n)
  refine Nat.eq_of_testBit_eq fun k => ?_
  rw [Nat.testBit_two_pow_sub_succ below, without, Nat.and_comm, Nat.and_two_pow_sub_one_eq_mod,
    Nat.testBit_xor, Nat.testBit_two_pow_sub_one, Nat.testBit_mod_two_pow]
  cases decide (k < n) <;> simp

/-- A full mask takes the remainder, of a negative number too. -/
theorem and_mask (a : Int) (n : Nat) : and a (2 ^ n - 1 : Nat) = a % (2 ^ n : Nat) := by
  cases a with
  | ofNat m => exact congrArg Int.ofNat (Nat.and_two_pow_sub_one_eq_mod m n)
  | negSucc m =>
      have below : m % 2 ^ n < 2 ^ n := Nat.mod_lt m (Nat.two_pow_pos n)
      have masked : and (Int.negSucc m) (2 ^ n - 1 : Nat) = (without (2 ^ n - 1) m : Nat) := rfl
      rw [masked, mask_without, Int.negSucc_emod m (by exact_mod_cast Nat.two_pow_pos n)]
      omega

/-- A mask above `s` bits, shifted down by these, takes a digit group. -/
theorem and_mask_shiftRight (a : Int) (n s : Nat) :
    and a ((2 ^ n - 1) <<< s : Nat) >>> s = a / (2 ^ s : Nat) % (2 ^ n : Nat) := by
  have mask : (((2 ^ n - 1) <<< s : Nat) : Int) >>> s = (2 ^ n - 1 : Nat) :=
    congrArg Int.ofNat (Nat.shiftLeft_shiftRight _ _)
  rw [and_shiftRight, mask, and_mask, Int.shiftRight_eq_div_pow]

end Bits

namespace Word

/-- The digits, the low byte and the address of a word. -/
structure Fields where
  group : Int
  x : Int
  y : Int
  low : Int
  byte : Int
  target : Int
  deriving DecidableEq, Repr

/-- The fields that the decoder reads. -/
def fields (w : Int) : Fields :=
  ⟨(group w).val, (x w).val, (y w).val, (low w).val, (byte w).toNat, (target w).val⟩

/-- The fields that masks and shifts take out of a word in two's complement. -/
def masked (w : Int) : Fields :=
  ⟨Bits.and w 0xF000 >>> (12 : Nat), Bits.and w 0x0F00 >>> (8 : Nat),
    Bits.and w 0x00F0 >>> (4 : Nat), Bits.and w 0x000F, Bits.and w 0x00FF, Bits.and w 0x0FFF⟩

/-- The fields of a word of 16 bits. -/
def fieldsOf (u : Int) : Fields :=
  ⟨u / 4096, u / 256 % 16, u / 16 % 16, u % 16, u % 256, u % 4096⟩

/-- A digit is a remainder of a quotient, for negative integers too. -/
theorem val_digit (w : Int) (k : Nat) : ((digit w k).val : Int) = w / Nat.pow 16 k % 16 :=
  Int.toNat_of_nonneg (Int.emod_nonneg _ (by decide))

theorem toNat_byte (w : Int) : ((byte w).toNat : Int) = w % 256 := by
  have small : (w % 256).toNat < 256 := by omega
  rw [byte, UInt8.toNat_ofNat_of_lt' small]
  omega

theorem val_target (w : Int) : ((target w).val : Int) = w % 4096 :=
  Int.toNat_of_nonneg (Int.emod_nonneg _ (by decide))

/-- The fields that the decoder reads are those of the 16 lowest bits. -/
theorem fields_eq (w : Int) : fields w = fieldsOf (w % 65536) := by
  have group : ((group w).val : Int) = w / 4096 % 16 := val_digit w 3
  have x : ((x w).val : Int) = w / 256 % 16 := val_digit w 2
  have y : ((y w).val : Int) = w / 16 % 16 := val_digit w 1
  have low : ((low w).val : Int) = w / 1 % 16 := val_digit w 0
  simp only [fields, fieldsOf, Fields.mk.injEq, group, x, y, low, toNat_byte, val_target]
  refine ⟨?_, ?_, ?_, ?_, ?_, ?_⟩ <;> omega

/-- Masks and shifts find the same fields in two's complement. -/
theorem masked_eq (w : Int) : masked w = fieldsOf (w % 65536) := by
  simp only [masked, fieldsOf, Fields.mk.injEq]
  refine ⟨(Bits.and_mask_shiftRight w 4 12).trans ?_, (Bits.and_mask_shiftRight w 4 8).trans ?_,
    (Bits.and_mask_shiftRight w 4 4).trans ?_, (Bits.and_mask w 4).trans ?_,
    (Bits.and_mask w 8).trans ?_, (Bits.and_mask w 12).trans ?_⟩ <;> omega

/-- Every field of a negative word may be full. -/
example : masked (-1) = ⟨0xF, 0xF, 0xF, 0xF, 0xFF, 0xFFF⟩ := by decide

/-- Words with the same fields have each field in common. -/
theorem fields_inj {w w' : Int} (same : fields w = fields w') :
    group w = group w' ∧ x w = x w' ∧ y w = y w' ∧ low w = low w' ∧ byte w = byte w' ∧
      target w = target w' := by
  simp only [fields, Fields.mk.injEq, Int.natCast_inj, Fin.val_inj, UInt8.toNat_inj] at same
  exact same

end Word

/-! ### Decoding by the fields -/

namespace Instruction

open Word

/-- The fields are all that the decoder looks at. -/
theorem decode?_congr {w w' : Int} (same : fields w = fields w') : decode? w = decode? w' := by
  obtain ⟨group, x, y, low, byte, target⟩ := fields_inj same
  simp only [decode?, decodeSystem, decodeArithmetic, decodeKey, decodeTransfer, group, x, y, low,
    byte, target]

/-- Decoding sees no more of a word than its 16 lowest bits. -/
theorem decode?_emod (w : Int) : decode? (w % 65536) = decode? w := by
  refine decode?_congr ?_
  rw [fields_eq, fields_eq, Int.emod_emod]

/-- Whether the fields are those of a word that stands for no instruction. -/
def IsHole (f : Fields) : Prop :=
  f.group = 0x0 ∧ f.low ≠ 0x0 ∧ f.low ≠ 0xE ∨
  f.group = 0x8 ∧ (0x8 ≤ f.low ∧ f.low ≤ 0xD ∨ f.low = 0xF) ∨
  f.group = 0xE ∧ f.byte ≠ 0x9E ∧ f.byte ≠ 0xA1 ∨
  f.group = 0xF ∧ f.byte ∉ [0x07, 0x0A, 0x15, 0x18, 0x1E, 0x29, 0x33, 0x55, 0x65]

variable (w : Int)

theorem decodeSystem_eq_none_iff :
    decodeSystem w = none ↔ (fields w).low ≠ 0x0 ∧ (fields w).low ≠ 0xE := by
  simp only [decodeSystem, fields]
  split <;> grind

theorem decodeArithmetic_eq_none_iff :
    decodeArithmetic w = none ↔
      0x8 ≤ (fields w).low ∧ (fields w).low ≤ 0xD ∨ (fields w).low = 0xF := by
  have below := (low w).isLt
  simp only [decodeArithmetic, fields]
  split <;> grind

theorem decodeKey_eq_none_iff :
    decodeKey w = none ↔ (fields w).byte ≠ 0x9E ∧ (fields w).byte ≠ 0xA1 := by
  simp only [decodeKey, fields]
  split <;> grind

theorem decodeTransfer_eq_none_iff :
    decodeTransfer w = none ↔
      (fields w).byte ∉ [0x07, 0x0A, 0x15, 0x18, 0x1E, 0x29, 0x33, 0x55, 0x65] := by
  simp only [decodeTransfer, fields, List.mem_cons, List.not_mem_nil]
  split <;> grind

/-- The fields tell which words stand for no instruction. -/
theorem decode?_eq_none_iff : decode? w = none ↔ IsHole (fields w) := by
  have field : (fields w).group = (group w).val := rfl
  have below := (group w).isLt
  unfold decode?
  split
  case h_1 g => simp [decodeSystem_eq_none_iff, IsHole, field, g]
  case h_9 g => simp [decodeArithmetic_eq_none_iff, IsHole, field, g]
  case h_15 g => simp [decodeKey_eq_none_iff, IsHole, field, g]
  case h_16 =>
      have g : (group w).val = 0xF := by grind
      simp [decodeTransfer_eq_none_iff, IsHole, field, g]
  all_goals
    rename_i g
    simp [IsHole, field, g]

end Instruction

end Chip8
