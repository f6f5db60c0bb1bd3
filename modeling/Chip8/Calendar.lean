/-!
Days of the calendar, and moments: a day with a time of day, which may say how far the clock is
ahead of universal time.

Two moments are the same if they name the same instant. A moment that leaves its distance from
universal time open is the same only as one with equal fields that leaves it open too.
-/

namespace Chip8

namespace Calendar

def isLeap (year : Nat) : Bool := year % 4 == 0 && (year % 100 != 0 || year % 400 == 0)

def daysIn (year month : Nat) : Nat :=
  if month = 2 then (if isLeap year then 29 else 28)
  else if month ∈ [4, 6, 9, 11] then 30
  else 31

/-- The days of so many months from the start of a year on. -/
def daysOfMonths (year : Nat) : Nat → Nat
  | 0 => 0
  | months + 1 => daysOfMonths year months + daysIn year (months + 1)

/-- The number of a day, counted from the first day of year 1. -/
def dayNumber (year month day : Nat) : Nat :=
  let years := year - 1
  365 * years + years / 4 - years / 100 + years / 400 + daysOfMonths year (month - 1) + (day - 1)

end Calendar

structure Moment where
  year : Nat
  month : Nat
  day : Nat
  hour : Nat
  minute : Nat
  second : Nat
  /-- Millionths of a second. -/
  micro : Nat
  /-- How many minutes the clock is ahead of universal time, if that is known. -/
  ahead? : Option Int
  deriving DecidableEq, Repr

namespace Moment

/-- The seconds from the start of the calendar to a moment by its own clock. -/
def clock (m : Moment) : Int :=
  86400 * Calendar.dayNumber m.year m.month m.day + 3600 * m.hour + 60 * m.minute + m.second

def same (m n : Moment) : Bool :=
  match m.ahead?, n.ahead? with
  | none, none => m == n
  | some a, some b => m.clock - 60 * a == n.clock - 60 * b && m.micro == n.micro
  | _, _ => false

end Moment

end Chip8
