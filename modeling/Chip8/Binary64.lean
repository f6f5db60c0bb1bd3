/-!
Binary floating-point numbers of 64 bits, kept as mantissa and exponent, and the nearest such number
to a quotient of naturals.

A finite number is `mantissa * 2 ^ exponent` with a mantissa below `2 ^ 53` and an exponent from
-1074 to 971; the mantissa is at least `2 ^ 52` unless the exponent is the least.
-/

namespace Chip8

/-- A floating-point number. -/
inductive Binary64 where
  | finite (negative : Bool) (mantissa : Nat) (exponent : Int)
  | infinite (negative : Bool)
  | nan
  deriving DecidableEq, Repr

namespace Binary64

def minExponent : Int := -1074

def maxExponent : Int := 971

/-- The least mantissa of a number whose exponent is not the least: `2 ^ 52`. -/
def leastMantissa : Nat := 0x10000000000000

def twoTo (e : Int) : Nat := Nat.pow 2 e.toNat

def tenTo (e : Int) : Nat := Nat.pow 10 e.toNat

def zero (negative : Bool) : Binary64 := .finite negative 0 minExponent

/-- The quotient rounded to the nearest natural, a half to the even one. -/
def roundDiv (num den : Nat) : Nat :=
  let q := num / den
  let r := num % den
  if den < 2 * r ∨ (2 * r = den ∧ q % 2 = 1) then q + 1 else q

/-- `num / den` divided by `2 ^ e`, as numerator and denominator. -/
def scaleDown (num den : Nat) (e : Int) : Nat × Nat :=
  (num * twoTo (-e), den * twoTo e)

/-- The exponent that leaves 53 bits before the point of `num / den`, or the least exponent. -/
def exponentFor (num den : Nat) : Int :=
  let e : Int := num.log2 - den.log2 - 52
  let (n, d) := scaleDown num den e
  max minExponent (if n / d < leastMantissa then e - 1 else e)

/-- The number nearest to a quotient, with a sign. -/
def ofRatio (negative : Bool) (num den : Nat) : Binary64 :=
  if num = 0 then zero negative
  else
    let e := exponentFor num den
    let (n, d) := scaleDown num den e
    let m := roundDiv n d
    let (m, e) := if m = 2 * leastMantissa then (leastMantissa, e + 1) else (m, e)
    if maxExponent < e then .infinite negative else .finite negative m e

/-- The number nearest to `digits * 10 ^ power`, with a sign. `length` is the count of decimal
digits of `digits`; a number that is far too large or too small is not computed in full. -/
def ofDecimal (negative : Bool) (digits length : Nat) (power : Int) : Binary64 :=
  if digits = 0 ∨ length + power < -400 then zero negative
  else if 400 < length + power then .infinite negative
  else ofRatio negative (digits * tenTo power) (tenTo (-power))

def isZero : Binary64 → Bool
  | .finite _ m _ => m == 0
  | _ => false

/-- The number nearest to `n * 2 ^ exponent`, with a sign. -/
def ofScaled (negative : Bool) (n : Nat) (exponent : Int) : Binary64 :=
  let (num, den) := scaleDown n 1 (-exponent)
  ofRatio negative num den

/-- The whole part of a number without regard to its sign; 0 for what is not finite. -/
def truncate : Binary64 → Nat
  | .finite _ m e => m * twoTo e / twoTo (-e)
  | _ => 0

def neg : Binary64 → Binary64
  | .finite negative m e => .finite (!negative) m e
  | .infinite negative => .infinite (!negative)
  | .nan => .nan

def addMagnitudes : Binary64 → Binary64 → Binary64
  | .finite _ m e, .finite _ n f =>
    let g := min e f
    ofScaled false (m * twoTo (e - g) + n * twoTo (f - g)) g
  | .nan, _ | _, .nan => .nan
  | _, _ => .infinite false

/-- The product of two numbers without regard to their signs; zero times infinity is no number. -/
def mulMagnitudes : Binary64 → Binary64 → Binary64
  | .finite _ m e, .finite _ n f => ofScaled false (m * n) (e + f)
  | .nan, _ | _, .nan => .nan
  | x, y => if x.isZero || y.isZero then .nan else .infinite false

def equalsInt : Binary64 → Int → Bool
  | .finite negative m e, n =>
    let m : Int := if negative then -m else m
    m * twoTo e == n * twoTo (-e)
  | _, _ => false

/-- Equality as numbers: zero has no sign, and what is not a number equals nothing. -/
def sameNumber : Binary64 → Binary64 → Bool
  | .finite s m e, .finite t n f => m == n && (m == 0 || s == t && e == f)
  | .infinite s, .infinite t => s == t
  | _, _ => false

end Binary64

end Chip8
