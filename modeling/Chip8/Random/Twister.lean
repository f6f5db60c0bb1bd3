/-!
The Mersenne Twister with 32-bit words (MT19937): 624 words of state, seeded from a list of words,
and the bytes drawn from it.

A byte is drawn from the upper nine bits of an output; nine-bit values from 256 on are skipped.
-/

namespace Chip8

structure Twister where
  words : Array UInt32
  used : Nat
  deriving DecidableEq

namespace Twister

def size : Nat := 624

/-- The distance of the word that is mixed in when a word is renewed. -/
def offset : Nat := 397

/-! ### Seeding -/

/-- A word with its upper bits folded down, multiplied. -/
def scramble (w factor : UInt32) : UInt32 := (w ^^^ (w >>> 30)) * factor

/-- The words that a single seed word gives, from place `i` on, `count` of them. -/
def spread : Nat → Nat → UInt32 → Array UInt32 → Array UInt32
  | 0, _, _, ws => ws
  | count + 1, i, previous, ws =>
    let w := scramble previous 1812433253 + UInt32.ofNat i
    spread count (i + 1) w (ws.push w)

/-- The state that the fixed seed word gives, before a key is mixed in. -/
def base : Array UInt32 := spread (size - 1) 1 19650218 #[19650218]

/-- A place in the state after `i`; the place after the last is 1, with the last word copied to
place 0. -/
def advance (i : Nat) (ws : Array UInt32) : Nat × Array UInt32 :=
  if i + 1 < size then (i + 1, ws) else (1, ws.setIfInBounds 0 (ws.getD (size - 1) 0))

/-- Mixes the words of a key in, `count` times, from state place `i` and key place `j` on. -/
def mixKey (key : Array UInt32) : Nat → Nat → Nat → Array UInt32 → Nat × Array UInt32
  | 0, i, _, ws => (i, ws)
  | count + 1, i, j, ws =>
    let w := (ws.getD i 0 ^^^ scramble (ws.getD (i - 1) 0) 1664525) + key.getD j 0 + UInt32.ofNat j
    match advance i (ws.setIfInBounds i w) with
    | (i, ws) => mixKey key count i (if j + 1 < key.size then j + 1 else 0) ws

/-- Mixes the places themselves in, `count` times, from place `i` on. -/
def mixPlaces : Nat → Nat → Array UInt32 → Array UInt32
  | 0, _, ws => ws
  | count + 1, i, ws =>
    let w := (ws.getD i 0 ^^^ scramble (ws.getD (i - 1) 0) 1566083941) - UInt32.ofNat i
    match advance i (ws.setIfInBounds i w) with
    | (i, ws) => mixPlaces count i ws

/-- The generator for a key of at least one word. -/
def ofKey (key : Array UInt32) : Twister :=
  match mixKey key (max size key.size) 1 0 base with
  | (i, ws) => ⟨(mixPlaces (size - 1) i ws).setIfInBounds 0 0x80000000, size⟩

/-- The number of values that a word has. -/
def wordCount : Nat := 0x100000000

/-- The 32-bit words of a number, the lowest first; zero has one word. -/
def keyOf (n : Nat) : List UInt32 :=
  if n < wordCount then [UInt32.ofNat n]
  else UInt32.ofNat (n % wordCount) :: keyOf (n / wordCount)
termination_by n
decreasing_by exact Nat.div_lt_self (by simp only [wordCount] at *; omega) (by decide)

/-- The generator for an integer seed; the sign does not count. -/
def ofSeed (seed : Int) : Twister := ofKey (keyOf seed.natAbs).toArray

/-! ### Output -/

/-- Renews the words of the state from place `i` on, `count` of them. -/
def renew : Nat → Nat → Array UInt32 → Array UInt32
  | 0, _, ws => ws
  | count + 1, i, ws =>
    let joined := (ws.getD i 0 &&& 0x80000000) ||| (ws.getD ((i + 1) % size) 0 &&& 0x7fffffff)
    let twist : UInt32 := if joined &&& 1 = 0 then 0 else 0x9908b0df
    renew count (i + 1)
      (ws.setIfInBounds i (ws.getD ((i + offset) % size) 0 ^^^ (joined >>> 1) ^^^ twist))

def temper (w : UInt32) : UInt32 :=
  let w := w ^^^ (w >>> 11)
  let w := w ^^^ ((w <<< 7) &&& 0x9d2c5680)
  let w := w ^^^ ((w <<< 15) &&& 0xefc60000)
  w ^^^ (w >>> 18)

def nextWord : Twister → UInt32 × Twister
  | ⟨words, used⟩ =>
    if used < size then (temper (words.getD used 0), ⟨words, used + 1⟩)
    else
      let words := renew size 0 words
      (temper (words.getD 0 0), ⟨words, 1⟩)

/-- The first of the next `tries` nine-bit values that is below 256. -/
def nextByteWithin : Nat → Twister → UInt8 × Twister
  | 0, g => (0, g)
  | tries + 1, g =>
    match g.nextWord with
    | (w, g) =>
      let r := (w >>> 23).toNat
      if r < 256 then (UInt8.ofNat r, g) else nextByteWithin tries g

/-- The next byte. The upper bits of the outputs are a linear recurring sequence of degree 19937,
which is never one 19938 times in a row, so the search always finds a value. -/
def nextByte (g : Twister) : UInt8 × Twister := nextByteWithin 19938 g

end Twister

end Chip8
