import Chip8.Numeral
import Chip8.Text.Printable

/-!
Quoted text: how a string is shown inside a list, a mapping or a message that quotes it.

Single quotes are used unless the string holds one and no double quote. The quote in use, the
backslash, line ends and tabs are escaped, and so is every character that is not printable, by its
code.
-/

namespace Chip8.Text

open Numeral

def quoteFor (cs : List Char) : Char :=
  if cs.contains '\'' && !cs.contains '"' then '"' else '\''

/-- The escape of a character by its code: two, four or eight hexadecimal digits. -/
def codeEscape (c : Char) : List Char :=
  let ds := (digits 16 c.toNat).map lowerDigit
  if c.toNat ≤ 0xFF then '\\' :: 'x' :: padZeros 2 ds
  else if c.toNat ≤ 0xFFFF then '\\' :: 'u' :: padZeros 4 ds
  else '\\' :: 'U' :: padZeros 8 ds

/-- A character as it stands between quotes. -/
def quotedChar (quote c : Char) : List Char :=
  if c == quote || c == '\\' then ['\\', c]
  else if c == '\n' then ['\\', 'n']
  else if c == '\r' then ['\\', 'r']
  else if c == '\t' then ['\\', 't']
  else if isPrintable c then [c]
  else codeEscape c

def quoted (s : String) : String :=
  let quote := quoteFor s.toList
  String.ofList (quote :: s.toList.flatMap (quotedChar quote) ++ [quote])

end Chip8.Text
