import Chip8.Config.IntegerText
import Chip8.Proofs.Numeral

/-!
Texts of integers, read back.

A text of digits is read as the digits that it shows (`Reads.digits?_map`). So an integer in decimal
is read back as that integer while it is short enough to be written (`decimal?_decimal`), and so is
an integer in hexadecimal of any width (`signedHex?_hex`). No two integers have the same hexadecimal
text (`hex_injective`).
-/

namespace Chip8.IntegerText

open Numeral

/-! ### Reading digits -/

/-- Whether the characters that show the digits below a base are read as these digits, and none of
them is a mark that may stand before a digit. -/
def Reads (digit? : Char → Option Nat) (shown : Nat → Char) (b : Nat) : Prop :=
  ∀ d < b, digit? (shown d) = some d ∧ shown d ≠ '_' ∧ shown d ≠ '-' ∧ shown d ≠ '+'

theorem reads_upperDigit : Reads hexDigit? upperDigit 16 := by
  unfold Reads
  decide

theorem reads_lowerDigit : Reads Text.decimalDigit? lowerDigit 10 := by
  unfold Reads
  decide

section Reads

variable {digit? : Char → Option Nat} {shown : Nat → Char} {b : Nat} {ds : List Nat}

/-- Digits are read back from the characters that show them. -/
theorem Reads.moreDigits?_map (reads : Reads digit? shown b) (small : ∀ d ∈ ds, d < b) :
    moreDigits? digit? (ds.map shown) = some ds := by
  induction ds with
  | nil => rfl
  | cons d ds ih =>
      obtain ⟨read, noMark, _⟩ := reads d (small d List.mem_cons_self)
      rw [List.map_cons, moreDigits?.eq_3 _ _ _ fun _ _ mark _ => noMark mark, read,
        ih fun d mem => small d (List.mem_cons_of_mem _ mem)]
      rfl

/-- A text of digits is read as the digits that it shows. -/
theorem Reads.digits?_map (reads : Reads digit? shown b) (nonempty : ds ≠ [])
    (small : ∀ d ∈ ds, d < b) : digits? digit? (ds.map shown) = some ds := by
  cases ds with
  | nil => exact absurd rfl nonempty
  | cons d ds =>
      obtain ⟨read, _⟩ := reads d (small d List.mem_cons_self)
      rw [List.map_cons, digits?, read,
        reads.moreDigits?_map fun d mem => small d (List.mem_cons_of_mem _ mem)]
      rfl

/-- No text of digits begins with a sign or a mark. -/
theorem Reads.no_mark (reads : Reads digit? shown b) (small : ∀ d ∈ ds, d < b) (c : Char)
    (cs : List Char) (mark : c = '_' ∨ c = '-' ∨ c = '+') : ds.map shown ≠ c :: cs := by
  intro begins
  have mem : c ∈ ds.map shown := begins ▸ List.mem_cons_self
  obtain ⟨d, digit, rfl⟩ := List.mem_map.mp mem
  obtain ⟨_, noMark, noMinus, noPlus⟩ := reads d (small d digit)
  rcases mark with mark | minus | plus
  · exact noMark mark
  · exact noMinus minus
  · exact noPlus plus

end Reads

/-! ### Reading integers -/

/-- A natural number is read back from its decimal text, if that is short enough. -/
theorem natural?_decimalNat {n : Nat} (short : (decimalNat n).length ≤ maxDecimalDigits) :
    natural? (decimalNat n) = some n := by
  rw [decimalNat, List.length_map] at short
  rw [natural?, decimalNat,
    reads_lowerDigit.digits?_map (digits_ne_nil 10 n) fun _ => lt_of_mem_digits (by decide)]
  simp only [Option.bind_eq_bind, Option.bind_some, if_pos short, value_digits]
  rfl

/-- An integer that is short enough to be written in decimal is read back as that integer. -/
theorem decimal?_decimal {n : Int} (writable : isWritable n) :
    decimal? (decimal n).toList = some n := by
  have read := natural?_decimalNat ((isWritable_iff n).mp writable)
  rw [toList_decimal]
  by_cases negative : n < 0
  · have size : -(n.natAbs : Int) = n := by omega
    rw [if_pos negative, List.singleton_append, decimal?, ← decimalNat, read]
    exact congrArg some size
  · have size : (n.natAbs : Int) = n := by omega
    have noMark := reads_lowerDigit.no_mark
      fun _ => @lt_of_mem_digits 10 n.natAbs _ (by decide)
    rw [if_neg negative, List.nil_append, decimal?.eq_3, ← decimalNat, read]
    · exact congrArg some size
    · exact fun cs => noMark '-' cs (.inr (.inl rfl))
    · exact fun cs => noMark '+' cs (.inr (.inr rfl))

/-- The integer that a hexadecimal text stands for, with a minus sign where it is negative. -/
def signedHex? : List Char → Option Int
  | '-' :: cs => (hexadecimal? cs).map fun n => -n
  | cs => hexadecimal? cs

/-- An integer in hexadecimal, whatever the width, is read back as that integer. -/
theorem signedHex?_hex (width : Nat) (n : Int) : signedHex? (hex width n).toList = some n := by
  obtain ⟨ds, shown, nonempty, small, value⟩ := toList_hex width n
  have noMark := reads_upperDigit.no_mark small
  have read : hexadecimal? (ds.map upperDigit) = some (n.natAbs : Int) := by
    rw [hexadecimal?.eq_2 _ fun cs => noMark '_' cs (.inl rfl),
      reads_upperDigit.digits?_map nonempty small, Option.map_some, value]
  rw [shown]
  by_cases negative : n < 0
  · have size : -(n.natAbs : Int) = n := by omega
    rw [if_pos negative, List.singleton_append, signedHex?, read, Option.map_some, size]
  · have size : (n.natAbs : Int) = n := by omega
    rw [if_neg negative, List.nil_append,
      signedHex?.eq_2 _ fun cs => noMark '-' cs (.inr (.inl rfl)), read, size]

/-- No two integers have the same hexadecimal text. -/
theorem hex_injective (width : Nat) : Function.Injective (hex width) := by
  intro n n' same
  have read := signedHex?_hex width n
  rw [same, signedHex?_hex] at read
  exact (Option.some.inj read).symm

end Chip8.IntegerText
