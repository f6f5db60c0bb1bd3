import Chip8.Datum
import Chip8.Binary64.Text
import Chip8.Host
import Chip8.Text.Quoted

/-!
The texts of data: a string stands for itself on its own and is quoted inside a list or a mapping.

Not every text can be shown. A text is written from left to right, and what it meets first of an
integer with too many decimal digits and of values that lie too deep in each other keeps it from
being shown (`obstacle?`).
-/

namespace Chip8.Datum

open Numeral

def twoDigits (n : Nat) : List Char := padZeros 2 (decimalNat n)

def dateText (year month day : Nat) : String :=
  String.ofList (padZeros 4 (decimalNat year) ++ '-' :: twoDigits month ++ '-' :: twoDigits day)

/-- The text of a moment: date, time of day, and how far its clock is ahead of universal time. -/
def momentText (m : Moment) : String :=
  let micro := if m.micro = 0 then [] else '.' :: padZeros 6 (decimalNat m.micro)
  let ahead := match m.ahead? with
    | none => []
    | some a =>
      (if a < 0 then '-' else '+') :: twoDigits (a.natAbs / 60) ++ ':' :: twoDigits (a.natAbs % 60)
  dateText m.year m.month m.day ++ String.ofList (' ' :: twoDigits m.hour ++ ':' ::
    twoDigits m.minute ++ ':' :: twoDigits m.second ++ micro ++ ahead)

/-- The text of a span of minutes: days, and the seconds of the rest of a day. -/
def spanCall (minutes : Int) : String :=
  let days := minutes / 1440
  let seconds := 60 * (minutes % 1440)
  let parts := (if days = 0 then [] else ["days=" ++ decimal days]) ++
    (if seconds = 0 then [] else ["seconds=" ++ decimal seconds])
  "datetime.timedelta(" ++ (if parts.isEmpty then "0" else ", ".intercalate parts) ++ ")"

/-- The text of a moment inside a list or a mapping, without the seconds where they are zero. -/
def momentCall (m : Moment) : String :=
  let seconds := if m.micro ≠ 0 then [m.second, m.micro]
    else if m.second ≠ 0 then [m.second]
    else []
  let fields := ([m.year, m.month, m.day, m.hour, m.minute] ++ seconds).map fun (n : Nat) =>
    decimal n
  let zone := match m.ahead? with
    | none => []
    | some a =>
      ["tzinfo=datetime.timezone" ++ if a = 0 then ".utc" else "(" ++ spanCall a ++ ")"]
  "datetime.datetime(" ++ ", ".intercalate (fields ++ zone) ++ ")"

def dateCall (year month day : Nat) : String :=
  "datetime.date(" ++ decimal year ++ ", " ++ decimal month ++ ", " ++ decimal day ++ ")"

/-- A byte as it stands between quotes. -/
def quotedByte (quote : Char) (b : UInt8) : List Char :=
  let c := Char.ofNat b.toNat
  if c == quote || c == '\\' then ['\\', c]
  else if c == '\n' then ['\\', 'n']
  else if c == '\r' then ['\\', 'r']
  else if c == '\t' then ['\\', 't']
  else if ' ' ≤ c && c ≤ '~' then [c]
  else '\\' :: 'x' :: padZeros 2 ((digits 16 b.toNat).map lowerDigit)

/-- The text of some bytes: `b` and the bytes between quotes. -/
def bytesText (bs : List UInt8) : String :=
  let quote := Text.quoteFor (bs.map fun b => Char.ofNat b.toNat)
  String.ofList ('b' :: quote :: bs.flatMap (quotedByte quote) ++ [quote])

mutual

/-- The text of a value inside a list or a mapping. -/
def innerText : Datum → String
  | .null => "None"
  | .bool b => if b then "True" else "False"
  | .int n => decimal n
  | .real x => x.text
  | .text s => Text.quoted s
  | .bytes bs => bytesText bs
  | .date y m d => dateCall y m d
  | .moment m => momentCall m
  | .list items => "[" ++ ", ".intercalate (itemTexts items) ++ "]"
  -- A comma tells a tuple of one item from its item in brackets.
  | .tuple [d] => "(" ++ innerText d ++ ",)"
  | .tuple items => "(" ++ ", ".intercalate (itemTexts items) ++ ")"
  | .set [] => "set()"
  | .set items => "\x7b" ++ ", ".intercalate (itemTexts items) ++ "\x7d"
  | .map entries => "\x7b" ++ ", ".intercalate (entryTexts entries) ++ "\x7d"
  | .listAgain => "[...]"
  | .mapAgain => "\x7b...\x7d"

def itemTexts : List Datum → List String
  | [] => []
  | d :: rest => innerText d :: itemTexts rest

def entryTexts : List (Datum × Datum) → List String
  | [] => []
  | (k, v) :: rest => (innerText k ++ ": " ++ innerText v) :: entryTexts rest

end

/-- The text of a value on its own. -/
def outerText : Datum → String
  | .text s => s
  | .date y m d => dateText y m d
  | .moment m => momentText m
  | d => d.innerText

/-! ### What keeps a text from being shown -/

/-- What keeps a value from being shown. -/
inductive Obstacle where
  /-- An integer with too many decimal digits. -/
  | tooLong
  /-- Values that lie too deep in each other. -/
  | tooDeep
  deriving DecidableEq, Repr

def Obstacle.message : Obstacle → String
  | .tooLong => limitMessage ""
  | .tooDeep => "maximum recursion depth exceeded while getting the repr of an object"

/-- How many values lie in each other where a moment is shown inside a list or a mapping: the
moment, its time zone, and how far the time zone is ahead. -/
def momentDepth (m : Moment) : Nat :=
  match m.ahead? with
  | none => 1
  | some a => if a = 0 then 2 else 3

mutual

/-- How many values lie in each other where a value is shown. The items of a set are shown as those
of a list inside it. -/
def depth : Datum → Nat
  | .moment m => momentDepth m
  | .list items | .tuple items => depthOfItems items + 1
  | .set [] => 1
  | .set items => depthOfItems items + 2
  | .map entries => depthOfEntries entries + 1
  | _ => 1

def depthOfItems : List Datum → Nat
  | [] => 0
  | d :: rest => max (depth d) (depthOfItems rest)

def depthOfEntries : List (Datum × Datum) → Nat
  | [] => 0
  | (k, v) :: rest => max (max (depth k) (depth v)) (depthOfEntries rest)

end

mutual

/-- What keeps a value inside a list or a mapping from being shown, where `levels` values may still
lie in each other. -/
def innerObstacle? (levels : Nat) (d : Datum) : Option Obstacle :=
  if levels = 0 then some .tooDeep
  else
    match d with
    | .int n => if Numeral.isWritable n then none else some .tooLong
    | .moment m => if levels < momentDepth m then some .tooDeep else none
    | .list items | .tuple items => itemsObstacle? (levels - 1) items
    | .set items => itemsObstacle? (levels - 2) items
    | .map entries => entriesObstacle? (levels - 1) entries
    | _ => none

/-- What keeps the items of a list from being shown: what is met in the first of them. -/
def itemsObstacle? (levels : Nat) : List Datum → Option Obstacle
  | [] => none
  | d :: rest => (innerObstacle? levels d).or (itemsObstacle? levels rest)

def entriesObstacle? (levels : Nat) : List (Datum × Datum) → Option Obstacle
  | [] => none
  | (k, v) :: rest =>
    ((innerObstacle? levels k).or (innerObstacle? levels v)).or (entriesObstacle? levels rest)

end

/-- What keeps a value on its own from being shown. -/
def obstacle? [Host] : Datum → Option Obstacle
  | .text _ | .date _ _ _ | .moment _ => none
  | d => d.innerObstacle? Host.depth

end Chip8.Datum
