import Chip8.Config.IntegerText
import Chip8.Host

/-!
The arguments of the program: the name of one program image, and options in any order around it.

An option may be shortened as long as only one option starts that way, and its value may be attached
with an equals sign. Texts that look like negative numbers or hold a blank are no options, and
neither is anything behind the first `--`.
-/

namespace Chip8.CommandLine

/-- What the arguments ask for. -/
structure Options where
  /-- The name of the program image. -/
  image : String
  /-- The name of the configuration. -/
  config? : Option String
  /-- How many instructions to execute; `none` if the host dropped what stood in place of the
  count. -/
  steps? : Option Int
  /-- Whether no trace is shown. -/
  quiet : Bool
  /-- Whether the registers are shown after the run. -/
  dumpRegisters : Bool
  /-- Whether a listing is shown instead of a run. -/
  disassemble : Bool
  deriving DecidableEq, Repr

inductive Switch where
  | help
  | config
  | steps
  | quiet
  | dumpRegisters
  | disassemble
  deriving DecidableEq, Repr

namespace Switch

def spellings : List (String × Switch) :=
  [("-h", help), ("--help", help), ("--config", config), ("--steps", steps), ("--quiet", quiet),
   ("--dump-registers", dumpRegisters), ("--disassemble", disassemble)]

def ofSpelling? (s : List Char) : Option Switch := spellings.lookup (String.ofList s)

/-- The options that a shortened spelling may stand for. -/
def startingWith (s : List Char) : List Switch :=
  (spellings.filter fun p => s.isPrefixOf p.1.toList).map Prod.snd

end Switch

/-! ### Single arguments -/

inductive Argument where
  /-- The first `--`, behind which no option is met. -/
  | divider
  | plain (text : String)
  | switch (s : Switch) (attached? : Option String)
  /-- What has the form of an option but is none. -/
  | unknown
  deriving DecidableEq, Repr

namespace Argument

open Text

/-- The digits at the start of a text and what follows them. -/
def spanDigits (cs : List Char) : List Char × List Char :=
  (cs.takeWhile fun c => (decimalDigit? c).isSome, cs.dropWhile fun c => (decimalDigit? c).isSome)

/-- Whether nothing or a single line end is left. -/
def isEnd (cs : List Char) : Bool := cs.isEmpty || cs == ['\n']

/-- Whether a text behind a minus sign is a number, with or without a point in or before it. -/
def isNumber (cs : List Char) : Bool :=
  match spanDigits cs with
  | (_, '.' :: rest) =>
    match spanDigits rest with
    | (fraction, rest) => !fraction.isEmpty && isEnd rest
  | (whole, rest) => !whole.isEmpty && isEnd rest

/-- An argument without an option of its spelling. -/
def ofUnspelled (text : String) (behindDash : List Char) : Argument :=
  if isNumber behindDash || text.toList.contains ' ' then .plain text else .unknown

/-- An argument that may be a shortened spelling before an attached value; `none` if more than one
option starts that way. -/
def ofShortened? (text : String) (head : List Char) (attached? : Option String) : Option Argument :=
  match Switch.startingWith head with
  | [] => some (ofUnspelled text (text.toList.drop 1))
  | [s] => some (.switch s attached?)
  | _ => none

/-- The short option for help with letters attached to it, with or without an equals sign. They
repeat the option or are a value for it. -/
def ofShortHelp (letters : List Char) : Argument :=
  .switch .help
    (if letters.isEmpty || letters.any (· != 'h') then some (String.ofList letters) else none)

/-- The form of an argument before the first divider; `none` if it is an ambiguous option. -/
def ofText? (text : String) : Option Argument :=
  match text.toList with
  | '-' :: c :: cs =>
    let all := '-' :: c :: cs
    let head := all.takeWhile fun c => c != '='
    let attached? :=
      if all.contains '=' then some (String.ofList (all.drop (head.length + 1))) else none
    match Switch.ofSpelling? all with
    | some s => some (.switch s none)
    | none =>
      if c = 'h' then some (ofShortHelp (if cs.head? = some '=' then cs.drop 1 else cs))
      else
        match Switch.ofSpelling? head with
        | some s => some (.switch s attached?)
        | none =>
          if c = '-' then ofShortened? text head attached? else some (ofUnspelled text (c :: cs))
  | _ => some (.plain text)

/-- The forms of all arguments; `none` if one is an ambiguous option. -/
def ofTexts? : List String → Option (List Argument)
  | [] => some []
  | text :: rest =>
    if text = "--" then some (divider :: rest.map plain)
    else do
      let a ← ofText? text
      let others ← ofTexts? rest
      return a :: others

end Argument

/-! ### All arguments -/

/-- How the reading of arguments ends. -/
inductive Request where
  /-- The arguments are wrong. -/
  | wrongUsage
  /-- Help is asked for. -/
  | help
  | run (options : Options)
  deriving DecidableEq, Repr

/-- What has been read of the arguments: the options with the image still missing, the image, and
whether there were arguments without a use. -/
structure Pending where
  image? : Option String
  surplus : Bool
  options : Options
  deriving DecidableEq, Repr

namespace Pending

def start : Pending := ⟨none, false, ⟨"", none, some 1000, false, false, false⟩⟩

/-- The state with an argument that is no option. -/
def place (p : Pending) (text : String) : Pending :=
  match p.image? with
  | none => { p with image? := some text }
  | some _ => { p with surplus := true }

def raise (p : Pending) : Switch → Pending
  | .quiet => { p with options := { p.options with quiet := true } }
  | .dumpRegisters => { p with options := { p.options with dumpRegisters := true } }
  | .disassemble => { p with options := { p.options with disassemble := true } }
  | .help | .config | .steps => p

/-- Whether a value is a divider that the host drops. -/
def isDropped [Host] (value : String) : Bool := Host.dropsAttached && value == "--"

/-- The state with the value of an option; `none` if the option has no such value. What is dropped
in place of the name of a configuration is no name, and in place of a count no count. -/
def assign? [Host] (p : Pending) (value : String) : Switch → Option Pending
  | .config =>
    some { p with options := { p.options with
      config? := if isDropped value then none else some value } }
  | .steps =>
    if isDropped value then some { p with options := { p.options with steps? := none } }
    else (IntegerText.blankDecimal? value.toList).map fun n =>
      { p with options := { p.options with steps? := some n } }
  | .help | .quiet | .dumpRegisters | .disassemble => none

def needsValue (s : Switch) : Bool := s == .config || s == .steps

def finish (p : Pending) : Request :=
  match p.image? with
  | some image => if p.surplus then .wrongUsage else .run { p.options with image := image }
  | none => .wrongUsage

/-- Reads arguments. A divider has a use only next to the image. -/
def read [Host] : Pending → List Argument → Request
  | p, [] => p.finish
  | p, .plain text :: .divider :: rest => read (p.place text) rest
  | p, .plain text :: rest => read (p.place text) rest
  | p, .divider :: rest => read { p with surplus := p.surplus || p.image?.isSome } rest
  | p, .unknown :: rest => read { p with surplus := true } rest
  | p, .switch s (some value) :: rest =>
    match p.assign? value s with
    | some p => read p rest
    | none => .wrongUsage
  | p, .switch s none :: rest =>
    if s = .help then .help
    else if needsValue s then
      match rest with
      | .plain value :: rest =>
        match p.assign? value s with
        | some p => read p rest
        | none => .wrongUsage
      | _ => .wrongUsage
    else read (p.raise s) rest

end Pending

def Request.ofArguments [Host] (args : List String) : Request :=
  match Argument.ofTexts? args with
  | some read => Pending.start.read read
  | none => .wrongUsage

end Chip8.CommandLine
