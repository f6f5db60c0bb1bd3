import Chip8.Numeral

/-!
Texts as bytes in UTF-8, and where bytes that are no text go wrong.

A character is a first byte and up to three continuation bytes. The range of the first continuation
byte may be narrower than that of the others, so that every character has one form only.

Bytes are decoded in blocks. The bytes of a character that a block leaves incomplete are decoded
together with the next block, and positions are counted from the first byte decoded together.
-/

namespace Chip8.Text.Utf8

open Numeral

/-- The cause for which bytes are no text. -/
inductive Error where
  /-- A byte that starts no character. -/
  | badStart (position : Nat) (byte : UInt8)
  /-- A byte that does not go on with the character whose bytes stand before it. -/
  | badContinuation (position : Nat) (seen : List UInt8)
  /-- The text ends inside a character. -/
  | truncated (seen : List UInt8)
  deriving DecidableEq, Repr

def placeText (position : Nat) : List UInt8 → String
  | [byte] => "byte " ++ taggedHex 4 byte.toNat ++ " in position " ++ decimal position
  | bytes => "bytes in position " ++ decimal position ++ "-" ++ decimal (position + bytes.length - 1)

/-- The text that reports an error. What is incomplete at the end of the text is left over from the
last block, so its first byte has position 0. -/
def Error.message (e : Error) : String :=
  "'utf-8' codec can't decode " ++
    match e with
    | .badStart position byte => placeText position [byte] ++ ": invalid start byte"
    | .badContinuation position seen => placeText position seen ++ ": invalid continuation byte"
    | .truncated seen => placeText 0 seen ++ ": unexpected end of data"

/-- A character of which continuation bytes are missing: the code point so far, how many bytes, the
range of the next one, and the bytes so far. -/
structure Incomplete where
  code : Nat
  missing : Nat
  low : Nat
  high : Nat
  seen : List UInt8
  deriving DecidableEq, Repr

/-- The character that a first byte above the ASCII range starts. -/
def Incomplete.start? (b : UInt8) : Option Incomplete :=
  let n := b.toNat
  if n < 0xC2 then none
  else if n < 0xE0 then some ⟨n - 0xC0, 1, 0x80, 0xBF, [b]⟩
  else if n < 0xF0 then
    some ⟨n - 0xE0, 2, if n = 0xE0 then 0xA0 else 0x80, if n = 0xED then 0x9F else 0xBF, [b]⟩
  else if n < 0xF5 then
    some ⟨n - 0xF0, 3, if n = 0xF0 then 0x90 else 0x80, if n = 0xF4 then 0x8F else 0xBF, [b]⟩
  else none

/-- The character with one more continuation byte; `none` if the byte cannot follow. -/
def Incomplete.next? (p : Incomplete) (b : UInt8) : Option Incomplete :=
  if p.low ≤ b.toNat ∧ b.toNat ≤ p.high then
    some ⟨p.code * 64 + (b.toNat - 0x80), p.missing - 1, 0x80, 0xBF, p.seen ++ [b]⟩
  else none

/-- Whether a byte that cannot follow an incomplete character is left over with it where a block
ends. The second byte of half a surrogate pair is. -/
def Incomplete.keeps (p : Incomplete) (b : UInt8) : Bool :=
  p.seen == [0xED] && 0xA0 ≤ b && b ≤ 0xBF

/-- What the bytes of a block stand for: characters, and the bytes at its end that are left over. -/
structure Piece where
  chars : List Char
  leftover : List UInt8
  deriving DecidableEq, Repr

/-- A piece with a character in front. -/
def Piece.cons (c : Char) (p : Piece) : Piece := { p with chars := c :: p.chars }

/-- What the bytes of a block stand for from a position on, inside a character or between two. -/
def decodeFrom : Nat → Option Incomplete → List UInt8 → Except Error Piece
  | _, none, [] => .ok ⟨[], []⟩
  | _, some p, [] => .ok ⟨[], p.seen⟩
  | position, none, b :: rest =>
    if b.toNat < 0x80 then
      (decodeFrom (position + 1) none rest).map (Piece.cons (Char.ofNat b.toNat))
    else
      match Incomplete.start? b with
      | some p => decodeFrom (position + 1) (some p) rest
      | none => .error (.badStart position b)
  | position, some p, b :: rest =>
    match p.next? b with
    | some q =>
      if q.missing = 0 then
        (decodeFrom (position + 1) none rest).map (Piece.cons (Char.ofNat q.code))
      else decodeFrom (position + 1) (some q) rest
    | none =>
      if p.keeps b && rest.isEmpty then .ok ⟨[], p.seen ++ [b]⟩
      else .error (.badContinuation (position - p.seen.length) p.seen)

def decodeBlock (bytes : List UInt8) : Except Error Piece := decodeFrom 0 none bytes

/-- The error, if any, of bytes that are left over where the text ends. -/
def Error.ofLeftover? : List UInt8 → Option Error
  | [] => none
  | [first, second] =>
    some (if first = 0xED ∧ 0xA0 ≤ second then .badContinuation 0 [first]
      else .truncated [first, second])
  | bytes => some (.truncated bytes)

end Chip8.Text.Utf8
