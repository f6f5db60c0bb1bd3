import Chip8.Numeral
import Chip8.Text.Blank
import Chip8.Text.DecimalDigit

/-!
Integers as texts: decimal with an optional sign, or hexadecimal after `0x` without one. Single
underscores may stand between digits, and after `0x`; the decimal digits of every script count.
-/

namespace Chip8.IntegerText

open Text

/-- The value of a hexadecimal digit: a decimal digit of any script or a letter from A to F. -/
def hexDigit? (c : Char) : Option Nat :=
  if 'a' ≤ c ∧ c ≤ 'f' then some (c.toNat - 'a'.toNat + 10)
  else if 'A' ≤ c ∧ c ≤ 'F' then some (c.toNat - 'A'.toNat + 10)
  else decimalDigit? c

/-- The digits of a text that follow a digit: each may have one underscore before it. -/
def moreDigits? (digit? : Char → Option Nat) : List Char → Option (List Nat)
  | [] => some []
  | '_' :: c :: rest => do
    let d ← digit? c
    let ds ← moreDigits? digit? rest
    return d :: ds
  | c :: rest => do
    let d ← digit? c
    let ds ← moreDigits? digit? rest
    return d :: ds

/-- The digits of a text that is not empty and starts with a digit. -/
def digits? (digit? : Char → Option Nat) : List Char → Option (List Nat)
  | [] => none
  | c :: rest => do
    let d ← digit? c
    let ds ← moreDigits? digit? rest
    return d :: ds

def natural? (cs : List Char) : Option Nat := do
  let ds ← digits? decimalDigit? cs
  if ds.length ≤ Numeral.maxDecimalDigits then return Numeral.value 10 ds else none

def decimal? : List Char → Option Int
  | '-' :: cs => (natural? cs).map fun n => -(n : Int)
  | '+' :: cs => (natural? cs).map fun n => (n : Int)
  | cs => (natural? cs).map fun n => (n : Int)

/-- The integer that the part of a hexadecimal text behind `0x` stands for. -/
def hexadecimal? : List Char → Option Int
  | '_' :: cs => (digits? hexDigit? cs).map fun ds => (Numeral.value 16 ds : Int)
  | cs => (digits? hexDigit? cs).map fun ds => (Numeral.value 16 ds : Int)

/-- The integer that a text without blanks at its ends stands for. -/
def stripped? : List Char → Option Int
  | '0' :: 'x' :: cs => hexadecimal? cs
  | '0' :: 'X' :: cs => hexadecimal? cs
  | cs => decimal? cs

/-- The integer that a decimal text with blanks around it stands for. The information separators do
not count as blanks here. -/
def blankDecimal? (cs : List Char) : Option Int :=
  decimal? (trim (fun c => isBlank c && !isSeparator c) cs)

end Chip8.IntegerText
