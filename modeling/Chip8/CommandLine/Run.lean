import Chip8.CommandLine.Arguments
import Chip8.CommandLine.Files
import Chip8.Config.Build
import Chip8.Config.Document
import Chip8.Listing
import Chip8.Machine.Run
import Chip8.Rom

/-!
Runs of the program: the configuration is read, the machine is built and the program image is loaded;
then the image is listed, or executed with a line of trace for each instruction.
-/

namespace Chip8.CommandLine

open Numeral

/-! ### Preparing -/

inductive Error where
  /-- A NUL character in the name of a file. -/
  | nulInName
  /-- A file that cannot be read. -/
  | file (name : String) (cause : Refusal)
  | config (cause : Config.Error)
  /-- A program image without bytes. -/
  | emptyImage (name : String)
  /-- A machine that cannot be built, or an image that cannot be loaded. -/
  | fault (cause : Fault)
  /-- A run without a count of instructions, which the parser of the arguments may leave out. -/
  | noCount

def Error.message : Error → String
  | .nulInName => "embedded null byte"
  | .file name cause => cause.message name
  | .config cause => cause.message
  | .emptyImage name => "ROM image is empty: " ++ name
  | .fault cause => cause.message
  | .noCount => "'list' object cannot be interpreted as an integer"

/-- Whether the program reports an error that is met while preparing. The others abort it: a
configuration that is no document or holds values too deep in each other to be shown, sizes beyond
every bound, and a count that is missing. -/
def Error.isReported : Error → Bool
  | .config (.document (.badValue _)) => true
  | .config (.document _) | .config (.unshown .tooDeep) | .noCount => false
  | .fault cause => cause.kind == .badValue
  | _ => true

def readFile (files : Files) (name : String) : Except Error (List UInt8) :=
  if name.toList.contains '\x00' then .error .nulInName
  else (files name).mapError (.file name)

/-- The warnings and the configuration that a run is given; a configuration without a name is the
one in which nothing is set. -/
def readConfig [Host] [Config.DocumentReader] (files : Files) (name? : Option String) :
    List String × Except Error Config :=
  match name? with
  | none | some "" => ([], .ok Config.default)
  | some name =>
    match readFile files name with
    | .error e => ([], .error e)
    | .ok bytes =>
      let reading := Config.ofBytes bytes
      (reading.warnings, reading.result.mapError .config)

/-- What is ready to run: a machine with an image in memory, where it starts and how long it is, and
the instructions for each tick of the timers. -/
structure Loaded where
  machine : Machine
  start : Int
  length : Nat
  period : Nat

/-- Builds the machine of a configuration and loads an image into it. -/
def loadImage [Host] (files : Files) (config : Config) (seed : Int) (image : String) :
    Except Error Loaded := do
  let machine ← (config.build seed).mapError .fault
  let bytes ← readFile files image
  if bytes.isEmpty then throw (.emptyImage image)
  match Machine.onBus (Rom.load bytes config.programStart) machine with
  | (.ok length, machine) =>
    return ⟨machine, config.programStart, length, config.cyclesPerTick.toNat⟩
  | (.error e, _) => throw (.fault e)

/-! ### Output -/

/-- How a run of the program ends: its exit code, what it prints, and the warnings in order. -/
structure Report where
  exitCode : Nat
  output : String
  errors : String
  warnings : List String
  deriving DecidableEq, Repr

/-- Lines of text, each with its end. -/
def unlines (ls : List String) : String := String.join (ls.map (· ++ "\n"))

def listingLine (l : Listing.Line) : String := hex 4 l.address ++ "  " ++ l.bytes ++ "  " ++ l.text

def registerLine (c : Cpu) : String :=
  " ".intercalate (c.registers.map fun (name, value) => name ++ "=" ++ hex 2 value)

inductive Outcome where
  | report (r : Report)
  /-- An error that is not reported: what was printed before it, and the warnings in order. -/
  | aborted (output : String) (warnings : List String) (cause : Error)

def failure (warnings : List String) (e : Error) : Outcome :=
  if e.isReported then .report ⟨2, "", unlines ["Error: " ++ e.message], warnings⟩
  else .aborted "" warnings e

def list (warnings : List String) (l : Loaded) : Outcome :=
  match Listing.lines? l.machine.bus l.start l.length with
  | .ok lines => .report ⟨0, unlines (lines.map listingLine), "", warnings⟩
  | .error e => .aborted "" warnings (.fault e)

/-- Executes a count of instructions. Only a fault that halts the processor is reported. -/
def execute (warnings : List String) (o : Options) (count : Int) (l : Loaded) : Outcome :=
  let (run, machine) := l.machine.run count.toNat l.period
  let trace := if o.quiet then [] else run.snapshots.map Snapshot.text
  let dump := if o.dumpRegisters then [registerLine machine.cpu] else []
  let warnings := warnings ++ machine.reports.map UnknownWord.message
  match run.fault? with
  | none => .report ⟨0, unlines (trace ++ dump), "", warnings⟩
  | some e =>
    if e.halts then
      .report ⟨1, unlines (trace ++ dump), unlines ["CPU halted: " ++ e.message], warnings⟩
    else .aborted (unlines trace) warnings (.fault e)

/-! ### Running -/

/-- Does with a loaded image what the options say. -/
def start (warnings : List String) (o : Options) (l : Loaded) : Outcome :=
  if o.disassemble then list warnings l
  else
    match o.steps? with
    | some count => execute warnings o count l
    | none => .aborted "" warnings .noCount

/-- Runs the program as its options say. `seed` starts the random source where the configuration
gives no seed. -/
def run [Host] [Config.DocumentReader] (files : Files) (seed : Int) (o : Options) : Outcome :=
  let (warnings, config) := readConfig files o.config?
  match config.bind fun c => loadImage files c seed o.image with
  | .error e => failure warnings e
  | .ok l => start warnings o l

def usage : String :=
  "usage: chip8-trace [-h] [--config FILE] [--steps N] [--quiet] [--dump-registers] " ++
    "[--disassemble] rom"

end Chip8.CommandLine
