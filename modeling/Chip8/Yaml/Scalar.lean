import Chip8.Yaml.Mark

/-!
The texts of scalars: plain ones, which end where a mark with a meaning starts, and quoted ones.

A scalar may go on over several lines. A single line break becomes a blank; of several breaks in a
row the first is dropped.
-/

namespace Chip8.Yaml

/-- The character that a line break contributes to a text. -/
def breakChar (c : Char) : Char := if c == '\u2028' || c == '\u2029' then c else '\n'

/-- What a line break and the breaks of empty lines after it become. -/
def joinBreaks (first : Char) (others : List Char) : List Char :=
  if breakChar first != '\n' then breakChar first :: others
  else if others.isEmpty then [' ']
  else others

/-! ### Plain scalars -/

/-- Whether a plain scalar ends before a character that another one follows. -/
def endsPlain (inFlow : Bool) (c next : Char) : Bool :=
  isWhite c || (c == ':' && (isWhite next || (inFlow && isFlowMark next))) ||
    (inFlow && (isFlowMark c || c == '?'))

/-- The characters of a plain scalar up to white space or its end, and what follows. -/
def takePlain (inFlow : Bool) : List Mark → List Char × List Mark
  | [] => ([], [])
  | m :: rest =>
    if endsPlain inFlow m.char (headChar rest) then ([], m :: rest)
    else
      let (cs, rest) := takePlain inFlow rest
      (m.char :: cs, rest)

/-- The white space inside or behind a plain scalar: what it becomes, whether it holds a line break,
and what follows. Nothing becomes of it where a separator of documents follows. -/
structure Gap where
  chars : List Char
  crossed : Bool
  rest : List Mark

/-- The breaks of empty lines, with blanks between them; `none` in front of a separator of
documents, with what follows. -/
def emptyLines : List Mark → Option (List Char) × List Mark
  | [] => (some [], [])
  | m :: rest =>
    if m.char == ' ' then emptyLines rest
    else if isBreak m.char then
      if atSeparator rest then (none, rest)
      else
        let (cs, rest) := emptyLines rest
        (cs.map (breakChar m.char :: ·), rest)
    else (some [], m :: rest)

def gapOf (ms : List Mark) : Gap :=
  let blanks := ms.takeWhile fun m => m.char == ' '
  match ms.dropWhile fun m => m.char == ' ' with
  | [] => ⟨[], false, []⟩
  | m :: rest =>
    if isBreak m.char then
      if atSeparator rest then ⟨[], true, rest⟩
      else
        match emptyLines rest with
        | (some others, rest) => ⟨joinBreaks m.char others, true, rest⟩
        | (none, rest) => ⟨[], true, rest⟩
    else ⟨blanks.map Mark.char, false, m :: rest⟩

/-- The characters of a plain scalar behind a gap, whether a line break came last, and what
follows. A scalar outside brackets ends at a line that is indented by less than `indent`; `pieces`
bounds the pieces between gaps. -/
def plainPieces (inFlow : Bool) (indent : Int) :
    Nat → List Char → Bool → List Mark → List Char × Bool × List Mark
  | 0, _, crossed, ms => ([], crossed, ms)
  | pieces + 1, gap, crossed, ms =>
    if headChar ms == '#' then ([], crossed, ms)
    else
      match takePlain inFlow ms with
      | ([], _) => ([], crossed, ms)
      | (cs, rest) =>
        let g := gapOf rest
        if g.chars.isEmpty || headChar g.rest == '#' ||
            (!inFlow && decide ((headColumn g.rest : Int) < indent)) then
          (gap ++ cs, g.crossed, g.rest)
        else
          let (more, crossed, rest) := plainPieces inFlow indent pieces g.chars g.crossed g.rest
          (gap ++ cs ++ more, crossed, rest)

/-- A plain scalar at the start of a text, whether a line break came last, and what follows. -/
def plainScalar (inFlow : Bool) (indent : Int) (ms : List Mark) : String × Bool × List Mark :=
  let (cs, crossed, rest) := plainPieces inFlow indent ms.length [] false ms
  (String.ofList cs, crossed, rest)

/-! ### Quoted scalars -/

def escapes : List (Char × Char) :=
  [('0', '\x00'), ('a', '\x07'), ('b', '\x08'), ('t', '\t'), ('\t', '\t'), ('n', '\n'),
   ('v', '\x0b'), ('f', '\x0c'), ('r', '\r'), ('e', '\x1b'), (' ', ' '), ('"', '"'), ('/', '/'),
   ('\\', '\\'), ('N', '\x85'), ('_', '\xa0'), ('L', '\u2028'), ('P', '\u2029')]

/-- How many hexadecimal digits follow the letter of a code escape. -/
def codeLengths : List (Char × Nat) := [('x', 2), ('u', 4), ('U', 8)]

def hexDigit? (c : Char) : Option Nat :=
  if c.isDigit then some (c.toNat - '0'.toNat)
  else if 'a' ≤ c ∧ c ≤ 'f' then some (c.toNat - 'a'.toNat + 10)
  else if 'A' ≤ c ∧ c ≤ 'F' then some (c.toNat - 'A'.toNat + 10)
  else none

/-- The error of a character that cannot stand where it does. -/
def misplaced (c : Char) : Error := if c == endChar then .unfinished else .malformed

/-- The number that exactly `count` hexadecimal digits at the start of a text stand for. -/
def code : Nat → Nat → List Mark → Except Error (Nat × List Mark)
  | 0, n, ms => .ok (n, ms)
  | _ + 1, _, [] => .error .unfinished
  | count + 1, n, m :: rest =>
    match hexDigit? m.char with
    | some d => code count (16 * n + d) rest
    | none => .error (misplaced m.char)

/-- The character with a code. Codes of surrogates, which stand for half a character, are not
supported. -/
def charOfCode (n : Nat) : Except Error Char :=
  if n.isValidChar then .ok (Char.ofNat n)
  else if n < 0x110000 then .error .malformed
  else if n < 0x80000000 then .error (.badValue "chr() arg not in range(0x110000)")
  else .error .hugeCode

/-- An escape behind its backslash: the character that it stands for, and what follows. -/
def escape : List Mark → Except Error (Char × List Mark)
  | [] => .error .unfinished
  | m :: rest =>
    match escapes.lookup m.char, codeLengths.lookup m.char with
    | some c, _ => .ok (c, rest)
    | none, some count => do
      let (n, rest) ← code count 0 rest
      return (← charOfCode n, rest)
    | none, none => .error (misplaced m.char)

/-- The breaks of empty lines in a quoted scalar, and what follows; a separator of documents must
not come in between. -/
def quotedLines : Bool → List Mark → Except Error (List Char × List Mark)
  | _, [] => .ok ([], [])
  | lineStart, m :: rest =>
    if lineStart && atSeparator (m :: rest) then .error (misplaced (headChar (rest.drop 2)))
    else if m.char == ' ' || m.char == '\t' then quotedLines false rest
    else if isBreak m.char then do
      let (cs, rest) ← quotedLines true rest
      return (breakChar m.char :: cs, rest)
    else .ok ([], m :: rest)

/-- The characters of a quoted scalar behind its opening quote, and what follows the closing one.
`bound` bounds the pieces that are read. -/
def quotedChars (double : Bool) : Nat → List Mark → Except Error (List Char × List Mark)
  | 0, _ => .error .malformed
  | _ + 1, [] => .error .unfinished
  | bound + 1, m :: rest =>
    let c := m.char
    if c == endChar then .error .unfinished
    else if double && c == '"' then .ok ([], rest)
    else if !double && c == '\'' then
      if headChar rest == '\'' then do
        let (cs, rest) ← quotedChars double bound (rest.drop 1)
        return ('\'' :: cs, rest)
      else .ok ([], rest)
    else if double && c == '\\' then
      if isBreak (headChar rest) then do
        let (breaks, rest) ← quotedLines true (rest.drop 1)
        let (cs, rest) ← quotedChars double bound rest
        return (breaks ++ cs, rest)
      else do
        let (e, rest) ← escape rest
        let (cs, rest) ← quotedChars double bound rest
        return (e :: cs, rest)
    else if c == ' ' || c == '\t' || isBreak c then do
      let isBlank := fun (m : Mark) => m.char == ' ' || m.char == '\t'
      let blanks := (m :: rest).takeWhile isBlank
      let rest := (m :: rest).dropWhile isBlank
      if isBreak (headChar rest) then
        let (others, after) ← quotedLines true (rest.drop 1)
        let (cs, after) ← quotedChars double bound after
        return (joinBreaks (headChar rest) others ++ cs, after)
      else
        let (cs, rest) ← quotedChars double bound rest
        return (blanks.map Mark.char ++ cs, rest)
    else do
      let (cs, rest) ← quotedChars double bound rest
      return (c :: cs, rest)

/-- A quoted scalar behind its opening quote, and what follows the closing one. -/
def quotedScalar (double : Bool) (ms : List Mark) : Except Error (String × List Mark) := do
  let (cs, rest) ← quotedChars double ms.length ms
  return (String.ofList cs, rest)

end Chip8.Yaml
