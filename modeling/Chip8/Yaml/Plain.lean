import Chip8.Yaml.Scalar
import Chip8.Yaml.Timestamp

/-!
The values of plain scalars, which have no quotes: null, truth values, integers, floating-point
numbers, dates and moments by the form of their text, and the text itself where it has none of these
forms.

Underscores between digits are dropped. An integer is binary after `0b`, hexadecimal after `0x`,
octal after any other `0`, and to base 60 where colons divide it.
-/

namespace Chip8.Yaml.Plain

open Numeral

/-! ### Words -/

def nullWords : List String := ["", "~", "null", "Null", "NULL"]

def trueWords : List String :=
  ["yes", "Yes", "YES", "true", "True", "TRUE", "on", "On", "ON"]

def falseWords : List String :=
  ["no", "No", "NO", "false", "False", "FALSE", "off", "Off", "OFF"]

def keyWords : List String := ["=", "<<"]

def infinityWords : List String := [".inf", ".Inf", ".INF"]

def nanWords : List String := [".nan", ".NaN", ".NAN"]

/-! ### Digits -/

/-- Whether a character is a digit below a base or an underscore. -/
def isDigitOf (base : Nat) (c : Char) : Bool :=
  c == '_' || (hexDigit? c).any fun d => d < base

def areDigits (base : Nat) (cs : List Char) : Bool := !cs.isEmpty && cs.all (isDigitOf base)

def isWhole : List Char → Bool
  | [] => false
  | c :: cs => c.isDigit && cs.all (isDigitOf 10)

/-- Whether a text is a place of a number to base 60: one digit, or two below 60. -/
def isPlace : List Char → Bool
  | [c] => c.isDigit
  | [c, d] => '0' ≤ c && c ≤ '5' && d.isDigit
  | _ => false

def dropUnderscores (cs : List Char) : List Char := cs.filter fun c => c != '_'

def colonParts : List Char → List (List Char)
  | [] => [[]]
  | c :: cs =>
    match colonParts cs with
    | [] => [[c]]
    | part :: parts => if c == ':' then [] :: part :: parts else (c :: part) :: parts

/-! ### Integers -/

/-- The number that digits below a base and underscores stand for; there must be a digit. -/
def naturalTo (base : Nat) (cs : List Char) : Except Error Nat :=
  match dropUnderscores cs with
  | [] => .error (.badValue ("invalid literal for int() with base " ++ decimal base ++ ": ''"))
  | ds => .ok (value base (ds.filterMap hexDigit?))

/-- The number that decimal digits and underscores stand for, unless there are too many digits. -/
def naturalDecimal (cs : List Char) : Except Error Nat :=
  let count := (dropUnderscores cs).length
  if count ≤ maxDecimalDigits then naturalTo 10 cs
  else .error (.badValue (limitMessage (": value has " ++ decimal count ++ " digits")))

/-- The natural number that a text without a sign stands for; `none` if it has not the form of
one. -/
def natural? : List Char → Option (Except Error Nat)
  | ['0'] => some (.ok 0)
  | '0' :: 'b' :: ds => if areDigits 2 ds then some (naturalTo 2 ds) else none
  | '0' :: 'x' :: ds => if areDigits 16 ds then some (naturalTo 16 ds) else none
  | '0' :: ds => if areDigits 8 ds then some (naturalTo 8 ('0' :: ds)) else none
  | cs =>
    match colonParts cs with
    | [] => none
    | whole :: places =>
      if isWhole whole && places.all isPlace then
        some ((whole :: places).foldlM (fun n part => (naturalDecimal part).map (60 * n + ·)) 0)
      else none

/-- The integer that a text stands for; `none` if it has not the form of one. -/
def integer? : List Char → Option (Except Error Int)
  | '-' :: cs => (natural? cs).map fun r => r.map fun n => -(n : Int)
  | '+' :: cs => (natural? cs).map fun r => r.map fun n => (n : Int)
  | cs => (natural? cs).map fun r => r.map fun n => (n : Int)

/-! ### Floating-point numbers -/

def isExponent : List Char → Bool
  | [] => true
  | [_] => false
  | e :: sign :: ds =>
    (e == 'e' || e == 'E') && (sign == '-' || sign == '+') && !ds.isEmpty && ds.all Char.isDigit

/-- Whether a text is digits, a point, digits and an exponent. A point in front wants a digit behind
it, and has no sign. -/
def isDecimal (signed : Bool) (cs : List Char) : Bool :=
  let whole := cs.takeWhile (isDigitOf 10)
  match cs.dropWhile (isDigitOf 10) with
  | '.' :: rest =>
    let fraction := rest.takeWhile (isDigitOf 10)
    (isWhole whole || (whole.isEmpty && !signed && isWhole fraction)) &&
      isExponent (rest.dropWhile (isDigitOf 10))
  | _ => false

/-- The place behind the last colon of a number to base 60 without its fraction; `none` if the text
has no fraction. -/
def lastPlace? (cs : List Char) : Option (List Char) :=
  match cs.dropWhile Char.isDigit with
  | '.' :: fraction =>
    if fraction.all (isDigitOf 10) then some (cs.takeWhile Char.isDigit) else none
  | _ => none

/-- Whether a text is a number to base 60 with a fraction, given as the parts between colons. -/
def isSexagesimal : List (List Char) → Bool
  | [] | [_] => false
  | whole :: places =>
    isWhole whole && places.dropLast.all isPlace &&
      ((places.getLast?.bind lastPlace?).any isPlace)

/-- The sum of places, the last one first, each times its weight; a weight must not be too large for
a floating-point number. -/
def weigh (total : Binary64) (weight : Nat) : List Binary64 → Except Error Binary64
  | [] => .ok total
  | x :: xs =>
    match Binary64.ofRatio false weight 1 with
    | .infinite _ => .error .overflow
    | w => weigh (total.addMagnitudes (x.mulMagnitudes w)) (60 * weight) xs

def decimalValue (cs : List Char) : Binary64 :=
  (Binary64.ofText? (String.ofList (dropUnderscores cs))).getD .nan

/-- The number that a text without its sign stands for; `none` if it has not the form of one. -/
def magnitude? (signed : Bool) (cs : List Char) : Option (Except Error Binary64) :=
  if String.ofList cs ∈ infinityWords then some (.ok (.infinite false))
  else if String.ofList cs ∈ nanWords && !signed then some (.ok .nan)
  else if isDecimal signed cs then some (.ok (decimalValue cs))
  else
    let parts := colonParts cs
    if isSexagesimal parts then
      some (weigh (.zero false) 1 (parts.reverse.map decimalValue))
    else none

/-- The floating-point number that a text stands for; `none` if it has not the form of one. -/
def real? : List Char → Option (Except Error Binary64)
  | '-' :: cs => (magnitude? true cs).map fun r => r.map Binary64.neg
  | '+' :: cs => magnitude? true cs
  | cs => magnitude? false cs

/-! ### All forms -/

/-- The value that a plain scalar stands for. -/
def datum (text : String) : Except Error Datum :=
  if text ∈ nullWords then .ok .null
  else if text ∈ trueWords then .ok (.bool true)
  else if text ∈ falseWords then .ok (.bool false)
  else if text ∈ keyWords then .error .malformed
  else
    match real? text.toList, integer? text.toList, Timestamp.datum? text.toList with
    | some r, _, _ => r.map .real
    | none, some r, _ => r.map .int
    | none, none, some r => r
    | none, none, none => .ok (.text text)

end Chip8.Yaml.Plain
