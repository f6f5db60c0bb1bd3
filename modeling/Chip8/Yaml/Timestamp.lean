import Chip8.Binary64.Text
import Chip8.Datum.Text
import Chip8.Yaml.Error

/-!
Dates and moments as plain scalars: a date has two digits for month and day; in front of a time of
day one digit is enough. A fraction of a second counts to the sixth digit, and a moment may end in
`Z` or in how far its clock is ahead of universal time.

A text of the right form whose numbers name no day, time or time zone is an error.
-/

namespace Chip8.Yaml.Timestamp

/-! ### Values -/

def dayFault? (year month day : Nat) : Option Error :=
  if year = 0 then some (.badValue "year 0 is out of range")
  else if ¬ (1 ≤ month ∧ month ≤ 12) then some (.badValue "month must be in 1..12")
  else if ¬ (1 ≤ day ∧ day ≤ Calendar.daysIn year month) then
    some (.badValue "day is out of range for month")
  else none

def timeFault? (hour minute second : Nat) : Option Error :=
  if 23 < hour then some (.badValue "hour must be in 0..23")
  else if 59 < minute then some (.badValue "minute must be in 0..59")
  else if 59 < second then some (.badValue "second must be in 0..59")
  else none

def zoneFault? (ahead : Int) : Option Error :=
  if ahead.natAbs < 1440 then none
  else some (.badValue ("offset must be a timedelta strictly between -timedelta(hours=24) and " ++
    "timedelta(hours=24), not " ++ Datum.spanCall ahead ++ "."))

def dateOf (year month day : Nat) : Except Error Datum :=
  match dayFault? year month day with
  | some e => .error e
  | none => .ok (.date year month day)

/-- A moment that has been read, if it is one. The time zone is looked at first. -/
def momentOf (m : Moment) : Except Error Datum :=
  match m.ahead?.bind zoneFault?, dayFault? m.year m.month m.day,
      timeFault? m.hour m.minute m.second with
  | some e, _, _ => .error e
  | none, some e, _ => .error e
  | none, none, some e => .error e
  | none, none, none => .ok (.moment m)

/-! ### Reading -/

/-- The number of `least` to `most` digits at the start of a text, and what follows it. -/
def number? (least most : Nat) (cs : List Char) : Option (Nat × List Char) :=
  let ds := cs.takeWhile Char.isDigit
  if least ≤ ds.length ∧ ds.length ≤ most then
    some (Binary64.digitsValue ds, cs.drop ds.length)
  else none

/-- What follows a character at the start of a text. -/
def behind? (c : Char) : List Char → Option (List Char)
  | d :: cs => if d = c then some cs else none
  | [] => none

/-- What follows the letter T or the blanks between date and time. -/
def behindGap? : List Char → Option (List Char)
  | c :: cs =>
    if c = 'T' ∨ c = 't' then some cs
    else if c = ' ' then some (cs.dropWhile (· == ' '))
    else none
  | [] => none

/-- The millionths of a second at the start of a text, and what follows them. -/
def fraction : List Char → Nat × List Char
  | '.' :: cs =>
    let ds := cs.takeWhile Char.isDigit
    (Binary64.digitsValue ((ds ++ List.replicate 6 '0').take 6), cs.drop ds.length)
  | cs => (0, cs)

/-- The minutes of a distance from universal time behind its sign: hours, and minutes if any. -/
def zoneMinutes? (cs : List Char) : Option Nat := do
  let (hours, cs) ← number? 1 2 cs
  if cs.isEmpty then return 60 * hours
  let (minutes, cs) ← number? 2 2 (← behind? ':' cs)
  if cs.isEmpty then return 60 * hours + minutes else none

/-- How far the clock is ahead of universal time, as the end of a text tells. -/
def zone? (cs : List Char) : Option (Option Int) :=
  if cs.isEmpty then some none
  else
    match cs.dropWhile (· == ' ') with
    | ['Z'] => some (some 0)
    | '+' :: cs => (zoneMinutes? cs).map fun n => some (n : Int)
    | '-' :: cs => (zoneMinutes? cs).map fun n => some (-(n : Int))
    | _ => none

def date? (cs : List Char) : Option (Except Error Datum) := do
  let (year, cs) ← number? 4 4 cs
  let (month, cs) ← number? 2 2 (← behind? '-' cs)
  let (day, cs) ← number? 2 2 (← behind? '-' cs)
  if cs.isEmpty then return dateOf year month day else none

def moment? (cs : List Char) : Option (Except Error Datum) := do
  let (year, cs) ← number? 4 4 cs
  let (month, cs) ← number? 1 2 (← behind? '-' cs)
  let (day, cs) ← number? 1 2 (← behind? '-' cs)
  let (hour, cs) ← number? 1 2 (← behindGap? cs)
  let (minute, cs) ← number? 2 2 (← behind? ':' cs)
  let (second, cs) ← number? 2 2 (← behind? ':' cs)
  let (micro, cs) := fraction cs
  let ahead? ← zone? cs
  return momentOf { year, month, day, hour, minute, second, micro, ahead? }

/-- The date or moment that a text stands for; `none` if it has not the form of one. -/
def datum? (cs : List Char) : Option (Except Error Datum) :=
  match date? cs with
  | some r => some r
  | none => moment? cs

end Chip8.Yaml.Timestamp
