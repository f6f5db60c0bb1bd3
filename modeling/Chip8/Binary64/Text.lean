import Chip8.Binary64
import Chip8.Numeral

/-!
The texts of floating-point numbers: the shortest decimal that reads back as the number, and the
number that a decimal text stands for.

The shortest decimal is searched digit count by digit count. On the grid of decimals with a given
count only the two neighbours of the number can be the nearest ones; the first grid with a
neighbour that rounds to the number wins, and the nearer neighbour if both do.
-/

namespace Chip8.Binary64

open Numeral

/-! ### Shortest decimals -/

/-- Positive decimals `digits * 10 ^ power`. -/
structure Decimal where
  digits : Nat
  power : Int
  deriving DecidableEq, Repr

/-- A number and the bounds of what rounds to it, in quarters of its last place: `low` and `high`
are the bounds, which round to the number themselves if `closed`. -/
structure Interval where
  low : Nat
  mid : Nat
  high : Nat
  closed : Bool
  exponent : Int
  deriving DecidableEq, Repr

def intervalOf (mantissa : Nat) (exponent : Int) : Interval :=
  let half := if mantissa = leastMantissa ∧ minExponent < exponent then 1 else 2
  ⟨4 * mantissa - half, 4 * mantissa, 4 * mantissa + 2, mantissa % 2 == 0, exponent - 2⟩

/-- The factors `p` and `q` for which `c * 10 ^ power` compares with `n * 2 ^ exponent` as `c * q`
does with `n * p`. -/
def factors (exponent power : Int) : Nat × Nat :=
  (twoTo exponent * tenTo (-power), tenTo power * twoTo (-exponent))

/-- Whether `c * 10 ^ power` rounds to the number of an interval. -/
def Interval.holds (i : Interval) (c : Nat) (power : Int) : Bool :=
  let (p, q) := factors i.exponent power
  if i.closed then i.low * p ≤ c * q && c * q ≤ i.high * p
  else i.low * p < c * q && c * q < i.high * p

/-- The neighbour of the number on the grid of multiples of `10 ^ power` that rounds to it; of two
the nearer one, of two equally near ones the even one. -/
def Interval.onGrid? (i : Interval) (power : Int) : Option Decimal :=
  let (p, q) := factors i.exponent power
  let c := i.mid * p / q
  let r := i.mid * p % q
  match i.holds c power, i.holds (c + 1) power with
  | true, true =>
    if q < 2 * r ∨ (2 * r = q ∧ c % 2 = 1) then some ⟨c + 1, power⟩ else some ⟨c, power⟩
  | true, false => some ⟨c, power⟩
  | false, true => some ⟨c + 1, power⟩
  | false, false => none

/-- The decimal exponent of a positive number: it lies from `10 ^ (result - 1)` to `10 ^ result`. -/
def Interval.magnitude (i : Interval) : Int :=
  let (p, q) := factors i.exponent (-400)
  (digits 10 (i.mid * p / q)).length - 400

/-- The first of the grids with `count`, `count + 1`, … digits that holds a decimal which rounds to
the number; 17 digits always do. -/
def Interval.search (i : Interval) (magnitude : Int) : Nat → Nat → Decimal
  | 0, count => ⟨i.mid, magnitude - count⟩
  | tries + 1, count =>
    match i.onGrid? (magnitude - count) with
    | some d => d
    | none => i.search magnitude tries (count + 1)

/-- The shortest decimal that rounds to a number, the nearest one of its length. -/
def shortest (mantissa : Nat) (exponent : Int) : Decimal :=
  let i := intervalOf mantissa exponent
  i.search i.magnitude 17 1

/-! ### Writing -/

/-- The digits of a decimal without zeros at the end, and the place of the point before or behind
the first of them. -/
def Decimal.layout (d : Decimal) : List Char × Int :=
  let all := decimalNat d.digits
  ((all.reverse.dropWhile (· == '0')).reverse, all.length + d.power)

def exponentText (e : Int) : List Char :=
  'e' :: (if e < 0 then '-' else '+') :: padZeros 2 (decimalNat e.natAbs)

/-- The text of a positive decimal: positional from `10 ^ -4` to below `10 ^ 16`, always with a
point, and with an exponent elsewhere. -/
def Decimal.text (d : Decimal) : List Char :=
  let (ds, point) := d.layout
  if -4 < point ∧ point ≤ 16 then
    if point ≤ 0 then '0' :: '.' :: List.replicate (-point).toNat '0' ++ ds
    else
      let n := point.toNat
      let fraction := if ds.length ≤ n then ['0'] else ds.drop n
      ds.take n ++ List.replicate (n - ds.length) '0' ++ '.' :: fraction
  else
    match ds with
    | [] => []
    | [c] => c :: exponentText (point - 1)
    | c :: rest => c :: '.' :: rest ++ exponentText (point - 1)

def text : Binary64 → String
  | .nan => "nan"
  | .infinite negative => if negative then "-inf" else "inf"
  | .finite negative m e =>
    let body := if m = 0 then ['0', '.', '0'] else (shortest m e).text
    String.ofList (if negative then '-' :: body else body)

/-! ### Reading -/

def readSign : List Char → Bool × List Char
  | '-' :: r => (true, r)
  | '+' :: r => (false, r)
  | r => (false, r)

def digitsValue (cs : List Char) : Nat := value 10 (cs.map fun c => c.toNat - '0'.toNat)

/-- The exponent part of a text; nothing counts as zero. -/
def readExponent? : List Char → Option Int
  | [] => some 0
  | c :: r =>
    if c == 'e' || c == 'E' then
      let (negative, ds) := readSign r
      if !ds.isEmpty && ds.all Char.isDigit then
        some (if negative then -(digitsValue ds : Int) else digitsValue ds)
      else none
    else none

/-- The number without sign that a text of digits, a point and an exponent stands for. -/
def readMagnitude? (negative : Bool) (cs : List Char) : Option Binary64 :=
  let whole := cs.takeWhile Char.isDigit
  let rest := cs.dropWhile Char.isDigit
  let (fraction, rest) := match rest with
    | '.' :: r => (r.takeWhile Char.isDigit, r.dropWhile Char.isDigit)
    | r => ([], r)
  let ds := whole ++ fraction
  if ds.isEmpty then none
  else (readExponent? rest).map fun e =>
    let n := digitsValue ds
    ofDecimal negative n (digits 10 n).length (e - fraction.length)

def ofText? (s : String) : Option Binary64 :=
  let (negative, body) := readSign s.toList
  let word := String.ofList (body.map Char.toLower)
  if word = "inf" ∨ word = "infinity" then some (.infinite negative)
  else if word = "nan" then some .nan
  else readMagnitude? negative body

end Chip8.Binary64
