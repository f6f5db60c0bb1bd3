import Chip8.Numeral

/-!
Hexadecimal texts.

Where a number is not too large for a width, its hexadecimal text of that width shows its last digits
and nothing else (`hex_eq`). So a byte is shown by two digits and a word of two bytes by the digits
of the one followed by those of the other (`hex_byte`, `hex_word`). Of any integer and width the text
is a sign and digits that write the absolute value (`toList_hex`).
-/

namespace Chip8.Numeral

variable {b n : Nat}

/-! ### Digits up to a width -/

/-- The last `k` digits of `n` in base `b`, zeros in front included. -/
def lastDigits (b : Nat) : Nat → Nat → List Nat
  | 0, _ => []
  | k + 1, n => lastDigits b k (n / b) ++ [n % b]

theorem lastDigits_zero (b k : Nat) : lastDigits b k 0 = List.replicate k 0 := by
  induction k with
  | zero => rfl
  | succ k ih => rw [lastDigits, Nat.zero_div, Nat.zero_mod, ih, List.replicate_succ']

/-- The digits of a number with zeros in front of them up to a width are its last digits. -/
theorem replicate_append_digits {k : Nat} (hb : 2 ≤ b) (small : n < Nat.pow b (k + 1)) :
    List.replicate (k + 1 - (digits b n).length) 0 ++ digits b n = lastDigits b (k + 1) n := by
  fun_induction digits b n generalizing k with
  | case1 n single =>
      have below : n < b := single.resolve_left (by omega)
      rw [lastDigits, Nat.div_eq_of_lt below, Nat.mod_eq_of_lt below, lastDigits_zero,
        List.length_singleton, Nat.add_sub_cancel]
  | case2 n more ih =>
      cases k with
      | zero =>
          rw [Nat.pow_eq, Nat.pow_one] at small
          omega
      | succ k =>
          have below : n / b < Nat.pow b (k + 1) := (Nat.div_lt_iff_lt_mul (by omega)).mpr small
          have width : k + 1 + 1 - (digits b (n / b) ++ [n % b]).length =
              k + 1 - (digits b (n / b)).length := by
            rw [List.length_append, List.length_singleton]
            omega
          rw [width, ← List.append_assoc, ih below]
          rfl

/-! ### Hexadecimal texts -/

/-- Hexadecimal that is wide enough for a number shows as many digits as it is wide. -/
theorem hex_eq {k : Nat} (small : n < Nat.pow 16 (k + 1)) :
    hex (k + 1) n = String.ofList ((lastDigits 16 (k + 1) n).map upperDigit) := by
  have natural : ¬ (n : Int) < 0 := by omega
  have zero : upperDigit 0 = '0' := by decide
  rw [hex, Layout.render, if_neg natural, ← replicate_append_digits (by decide) small,
    List.map_append, List.map_replicate, zero]
  simp only [padZeros, List.length_map, Int.natAbs_natCast, List.length_nil, Nat.sub_zero,
    List.nil_append]

def hexText (bytes : List UInt8) : String :=
  String.ofList
    (bytes.flatMap fun byte => [upperDigit (byte.toNat / 16), upperDigit (byte.toNat % 16)])

/-- The text of bytes is that of one part and then of the other. -/
theorem hexText_append (bytes later : List UInt8) :
    hexText (bytes ++ later) = hexText bytes ++ hexText later := by
  rw [hexText, List.flatMap_append, String.ofList_append]
  rfl

@[simp] theorem length_hexText (bytes : List UInt8) : (hexText bytes).length = 2 * bytes.length := by
  induction bytes with
  | nil => rfl
  | cons byte bytes ih =>
      rw [← List.singleton_append, hexText_append, String.length_append, ih]
      simp [hexText]
      omega

/-- A byte in two digits. -/
theorem hex_byte (byte : UInt8) : hex 2 byte.toNat = hexText [byte] := by
  have below := byte.toNat_lt
  have high : byte.toNat / 16 % 16 = byte.toNat / 16 := by omega
  rw [hex_eq below]
  simp [lastDigits, high, hexText]

/-- A word of two bytes in the digits of both. -/
theorem hex_word (high low : UInt8) :
    hex 4 (high.toNat * 256 + low.toNat) = hexText [high, low] := by
  have belowHigh := high.toNat_lt
  have belowLow := low.toNat_lt
  have small : high.toNat * 256 + low.toNat < Nat.pow 16 4 := by
    simp only [Nat.pow_eq]
    omega
  have first : (high.toNat * 256 + low.toNat) / 16 / 16 / 16 % 16 = high.toNat / 16 := by omega
  have second : (high.toNat * 256 + low.toNat) / 16 / 16 % 16 = high.toNat % 16 := by omega
  have third : (high.toNat * 256 + low.toNat) / 16 % 16 = low.toNat / 16 := by omega
  have fourth : (high.toNat * 256 + low.toNat) % 16 = low.toNat % 16 := by omega
  have word : (high.toNat * 256 + low.toNat : Int) = (high.toNat * 256 + low.toNat : Nat) := rfl
  rw [word, hex_eq small]
  simp [lastDigits, first, second, third, fourth, hexText]

/-! ### Signs and digits -/

theorem lt_of_mem_digits {b n d : Nat} (hb : 2 ≤ b) (mem : d ∈ digits b n) : d < b := by
  fun_induction digits b n with
  | case1 n single =>
      rw [List.mem_singleton] at mem
      omega
  | case2 n more ih =>
      rcases List.mem_append.mp mem with upper | last
      · exact ih upper
      · rw [List.mem_singleton.mp last]
        exact Nat.mod_lt n (by omega)

theorem digits_ne_nil (b n : Nat) : digits b n ≠ [] :=
  List.ne_nil_of_length_pos (length_digits_pos b n)

/-- Zeros in front change nothing of what digits stand for. -/
theorem value_replicate_append (b k : Nat) (ds : List Nat) :
    value b (List.replicate k 0 ++ ds) = value b ds := by
  induction k with
  | zero => rfl
  | succ k ih => simpa [value, List.replicate_succ] using ih

/-- A number with few enough digits can be written. -/
theorem isWritable_of_lt {n k : Nat} (small : n < Nat.pow 10 k) (short : k ≤ maxDecimalDigits) :
    isWritable n := by
  rw [isWritable, decide_eq_true_iff, Int.natAbs_natCast]
  -- The limit is only compared; its power is not to be computed.
  generalize maxDecimalDigits = limit at short
  exact Nat.lt_of_lt_of_le small (Nat.pow_le_pow_right (by decide) short)

theorem toList_decimal (n : Int) :
    (decimal n).toList = (if n < 0 then ['-'] else []) ++ (digits 10 n.natAbs).map lowerDigit := by
  rw [decimal, String.toList_ofList]
  split <;> rfl

/-- In hexadecimal an integer is its sign and the digits of its absolute value, zeros in front
included. -/
theorem toList_hex (width : Nat) (n : Int) : ∃ ds,
    (hex width n).toList = (if n < 0 then ['-'] else []) ++ ds.map upperDigit ∧
      ds ≠ [] ∧ (∀ d ∈ ds, d < 16) ∧ value 16 ds = n.natAbs := by
  have zero : upperDigit 0 = '0' := by decide
  let zeros := width - (if n < 0 then ['-'] else []).length - (digits 16 n.natAbs).length
  refine ⟨List.replicate zeros 0 ++ digits 16 n.natAbs, ?_, ?_, ?_, ?_⟩
  · rw [List.map_append, List.map_replicate, zero]
    simp only [hex, Layout.render, padZeros, String.toList_ofList, List.length_map, zeros]
  · exact List.append_ne_nil_of_right_ne_nil _ (digits_ne_nil 16 n.natAbs)
  · intro d mem
    rcases List.mem_append.mp mem with padding | digit
    · rw [(List.mem_replicate.mp padding).2]
      decide
    · exact lt_of_mem_digits (by decide) digit
  · rw [value_replicate_append, value_digits]

end Chip8.Numeral
