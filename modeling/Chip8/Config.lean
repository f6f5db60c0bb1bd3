import Chip8.Config.IntegerText
import Chip8.Datum.Text
import Chip8.Display
import Chip8.Font
import Chip8.Machine
import Chip8.Text.UpperCase
import Chip8.Yaml.Error

/-!
Configurations: what a system is built from, and how a configuration is read from data.

Sections and settings that are absent have defaults. An unknown key at the top is only warned of;
a section of a wrong type and a setting that is no integer are errors. So is a key, or a value that
an error is to show, whose text cannot be shown.
-/

namespace Chip8

structure Config where
  memorySize : Int
  programStart : Int
  fontAddress : Int
  displayWidth : Int
  displayHeight : Int
  /-- The instructions executed for each tick of the timers. -/
  cyclesPerTick : Int
  seed? : Option Int
  /-- The initial program counter; the program start if absent. -/
  pc? : Option Int
  /-- Initial values of registers by name. -/
  registers : List (String × Int)
  deriving DecidableEq, Repr

namespace Config

def default : Config where
  memorySize := 0x1000
  programStart := Machine.defaultProgramStart
  fontAddress := Font.defaultAddress
  displayWidth := Display.defaultWidth
  displayHeight := Display.defaultHeight
  cyclesPerTick := 10
  seed? := none
  pc? := none
  registers := []

inductive Error where
  /-- The text is no document. -/
  | document (cause : Yaml.Error)
  /-- The whole is no mapping. -/
  | rootType (type : String)
  /-- A section is no mapping. -/
  | sectionType (name type : String)
  /-- A setting is no integer, and its text can be shown. -/
  | notAnInteger (value : Datum)
  /-- A memory without cells. -/
  | memorySize (size : Int)
  /-- A program start outside memory. -/
  | programStart (start size : Int)
  /-- Timers that never tick. -/
  | cyclesPerTick (cycles : Int)
  /-- A key or a setting whose text has to be shown and cannot be. -/
  | unshown (obstacle : Datum.Obstacle)

namespace Error

open Numeral

/-- Whether the text of an error shows no integer that is too long to be written. -/
def isWritable : Error → Bool
  | .document _ | .rootType _ | .sectionType _ _ | .notAnInteger _ | .unshown _ => true
  | .memorySize n | .programStart _ n | .cyclesPerTick n => Numeral.isWritable n

def text : Error → String
  | .document cause => cause.message
  | .rootType type => "Configuration root must be a mapping, got " ++ type
  | .sectionType name type => "'" ++ name ++ "' section must be a mapping, got " ++ type
  | .notAnInteger value => "Invalid integer format: " ++ value.outerText
  | .memorySize size => "Invalid memory size: " ++ decimal size
  | .programStart start size =>
    "Program start " ++ taggedHex 5 start ++ " outside memory of size " ++ decimal size
  | .cyclesPerTick cycles => "cycles_per_tick must be positive: " ++ decimal cycles
  | .unshown obstacle => obstacle.message

def message (e : Error) : String := if e.isWritable then e.text else limitMessage ""

end Error

/-! ### Settings -/

/-- The text of a value on its own, if it can be shown. -/
def shownText [Host] (d : Datum) : Except Error String :=
  match d.obstacle? with
  | none => .ok d.outerText
  | some obstacle => .error (.unshown obstacle)

/-- The integer that a value stands for: an integer itself, or a text of one. The error of any other
value shows the value. -/
def integer [Host] : Datum → Except Error Int
  | .int n => .ok n
  | .text s =>
    let cs := Text.strip s.toList
    match IntegerText.stripped? cs with
    | some n => .ok n
    | none => .error (.notAnInteger (.text (String.ofList cs)))
  | d => do
    let _ ← shownText d
    throw (.notAnInteger d)

def setting [Host] (entries : List (Datum × Datum)) (name : String) (value : Int) :
    Except Error Int :=
  match Datum.lookup name entries with
  | some d => integer d
  | none => .ok value

/-- The integer under a key, if there is a value that is not null. -/
def optionalSetting [Host] (entries : List (Datum × Datum)) (name : String) :
    Except Error (Option Int) :=
  match Datum.lookup name entries with
  | none | some .null => .ok none
  | some d => (integer d).map some

/-- The entries of a section; one that is absent or null has none. -/
def sectionEntries (entries : List (Datum × Datum)) (name : String) :
    Except Error (List (Datum × Datum)) :=
  match Datum.lookup name entries with
  | none | some .null => .ok []
  | some (.map es) => .ok es
  | some d => .error (.sectionType name d.typeName)

/-- Puts a value under a name: in place of its value, or at the end. -/
def putRegister (name : String) (value : Int) : List (String × Int) → List (String × Int)
  | [] => [(name, value)]
  | (n, v) :: rest => if n = name then (n, value) :: rest else (n, v) :: putRegister name value rest

/-- The name of the register that a key stands for: its text in upper case. -/
def registerName [Host] (key : Datum) : Except Error String := (shownText key).map Text.upper

def registerValues [Host] (entries : List (Datum × Datum)) : Except Error (List (String × Int)) :=
  entries.foldlM (fun rs (k, v) => do
    let name ← registerName k
    let n ← integer v
    return putRegister name n rs) []

/-! ### Reading -/

/-- The keys that mean something at the top. -/
def knownKeys : List String := ["memory", "display", "timing", "random_seed", "initial_state"]

def isKnownKey : Datum → Bool
  | .text s => s ∈ knownKeys
  | _ => false

/-- The keys that mean nothing at the top, in order. -/
def unknownKeys (entries : List (Datum × Datum)) : List Datum :=
  (entries.map Prod.fst).filter fun k => !isKnownKey k

/-- The warnings of the keys that mean nothing, in order, up to the first one that cannot be
shown. -/
def warningsOf [Host] (entries : List (Datum × Datum)) : List String :=
  ((unknownKeys entries).takeWhile fun k => k.obstacle?.isNone).map fun k =>
    "Unknown configuration key '" ++ k.outerText ++ "' ignored"

def ofEntries [Host] (entries : List (Datum × Datum)) : Except Error Config := do
  let _ ← (unknownKeys entries).mapM shownText
  let memory ← sectionEntries entries "memory"
  let memorySize ← setting memory "size" default.memorySize
  let programStart ← setting memory "program_start" default.programStart
  let fontAddress ← setting memory "font_address" default.fontAddress
  if memorySize ≤ 0 then throw (.memorySize memorySize)
  if ¬ (0 ≤ programStart ∧ programStart < memorySize) then
    throw (.programStart programStart memorySize)
  let display ← sectionEntries entries "display"
  let displayWidth ← setting display "width" default.displayWidth
  let displayHeight ← setting display "height" default.displayHeight
  let timing ← sectionEntries entries "timing"
  let cyclesPerTick ← setting timing "cycles_per_tick" default.cyclesPerTick
  if cyclesPerTick ≤ 0 then throw (.cyclesPerTick cyclesPerTick)
  let initialState ← sectionEntries entries "initial_state"
  let pc? ← optionalSetting initialState "pc"
  let registers ← registerValues (← sectionEntries initialState "registers")
  let seed? ← optionalSetting entries "random_seed"
  return { memorySize, programStart, fontAddress, displayWidth, displayHeight, cyclesPerTick,
           seed?, pc?, registers }

/-- What reading a configuration gives: the warnings, and the configuration or an error. -/
structure Reading where
  warnings : List String
  result : Except Error Config

def ofDatum [Host] : Datum → Reading
  | .map entries => ⟨warningsOf entries, ofEntries entries⟩
  | d => ⟨[], .error (.rootType d.typeName)⟩

end Config

end Chip8
