/-!
Numbers in positional notation: the digits of a natural number in a base, the value of a digit
list, and the hexadecimal and decimal texts that traces, listings and messages are made of.
Decimal texts are limited in length, hexadecimal ones are not.

Main statements:

* `value_digits`: reading the digits of a number back gives the number;
* `length_digits_le_iff`: a number has at most `k` digits just if it lies below the `k`-th power of
  the base, so that `isWritable` says which decimal texts stay within the limit.
-/

namespace Chip8.Numeral

/-! ### Digits and their value -/

/-- The digits of `n` in base `b`, the most significant first; zero has the single digit 0. -/
def digits (b n : Nat) : List Nat :=
  if b < 2 ∨ n < b then [n] else digits b (n / b) ++ [n % b]
termination_by n
decreasing_by exact Nat.div_lt_self (by omega) (by omega)

/-- The number that a digit list writes in base `b`. -/
def value (b : Nat) (ds : List Nat) : Nat :=
  ds.foldl (fun n d => n * b + d) 0

theorem value_append_singleton (b : Nat) (ds : List Nat) (d : Nat) :
    value b (ds ++ [d]) = value b ds * b + d := by
  simp [value]

/-- The digits of a number stand for it. -/
theorem value_digits (b n : Nat) : value b (digits b n) = n := by
  fun_induction digits b n with
  | case1 n h => simp [value]
  | case2 n h ih => rw [value_append_singleton, ih, Nat.div_add_mod']

theorem length_digits_pos (b n : Nat) : 0 < (digits b n).length := by
  rw [digits]
  split <;> simp

/-- A number has at most `k` digits exactly if it lies below the power of the base. -/
theorem length_digits_le_iff {b n k : Nat} (hb : 2 ≤ b) (hk : 0 < k) :
    (digits b n).length ≤ k ↔ n < Nat.pow b k := by
  fun_induction digits b n generalizing k with
  | case1 n h =>
    have hn : n < b := h.resolve_left (by omega)
    have : Nat.pow b 1 ≤ Nat.pow b k := Nat.pow_le_pow_right (by omega) hk
    simp only [List.length_singleton]
    simp only [Nat.pow_eq, Nat.pow_one] at this ⊢
    omega
  | case2 n h ih =>
    match k, hk with
    | 1, _ =>
      have := length_digits_pos b (n / b)
      simp only [List.length_append, List.length_singleton, Nat.pow_eq, Nat.pow_one]
      omega
    | k + 2, _ =>
      have := ih (Nat.succ_pos k)
      rw [Nat.div_lt_iff_lt_mul (by omega)] at this
      rw [List.length_append, List.length_singleton, Nat.add_le_add_iff_right, this]
      exact Iff.rfl

/-! ### Texts -/

def lowerDigit (d : Nat) : Char := Nat.digitChar d

def upperDigit (d : Nat) : Char := (Nat.digitChar d).toUpper

def decimalNat (n : Nat) : List Char := (digits 10 n).map lowerDigit

/-- The decimal text of an integer, with a minus sign where it is negative. -/
def decimal (n : Int) : String :=
  String.ofList (if n < 0 then '-' :: decimalNat n.natAbs else decimalNat n.natAbs)

/-- How a hexadecimal text is laid out: the characters that stand before the digits, the letter
case, and the least width of the whole text, sign included, to which zeros fill it up. -/
structure Layout where
  opening : List Char
  digit : Nat → Char
  width : Nat

/-- Zeros in front of `cs` up to the given width. -/
def padZeros (width : Nat) (cs : List Char) : List Char :=
  List.replicate (width - cs.length) '0' ++ cs

/-- An integer in hexadecimal: sign, opening, then the digits with zeros in front of them. -/
def Layout.render (l : Layout) (n : Int) : String :=
  let opening := if n < 0 then '-' :: l.opening else l.opening
  String.ofList (opening ++ padZeros (l.width - opening.length) ((digits 16 n.natAbs).map l.digit))

/-- Upper-case hexadecimal with at least `width` characters. -/
def hex (width : Nat) (n : Int) : String :=
  Layout.render ⟨[], upperDigit, width⟩ n

/-- Lower-case hexadecimal after `0x`, with at least `width` characters in all. -/
def taggedHex (width : Nat) (n : Int) : String :=
  Layout.render ⟨['0', 'x'], lowerDigit, width⟩ n

/-! ### The limit on decimal texts -/

/-- The greatest number of decimal digits that is read or written as one number. -/
def maxDecimalDigits : Nat := 4300

/-- Whether an integer has few enough digits to be written in decimal. -/
def isWritable (n : Int) : Bool := n.natAbs < Nat.pow 10 maxDecimalDigits

/-- An integer can be written exactly if its digits are within the limit. -/
theorem isWritable_iff (n : Int) :
    isWritable n ↔ (decimalNat n.natAbs).length ≤ maxDecimalDigits := by
  rw [isWritable, decide_eq_true_iff, decimalNat, List.length_map]
  exact (length_digits_le_iff (by decide) (by decide)).symm

/-- The text that reports a number with too many decimal digits, with a remark on the number. -/
def limitMessage (remark : String) : String :=
  "Exceeds the limit (" ++ decimal maxDecimalDigits ++ " digits) for integer string conversion" ++
    remark ++ "; use sys.set_int_max_str_digits() to increase the limit"

end Chip8.Numeral
