import Chip8.Config

/-!
The machine that a configuration describes: one memory from address 0 on, with the font loaded and
the initial register values set.
-/

namespace Chip8.Config

def generalRegister? (name : String) : Option Register :=
  (List.finRange 16).find? fun x => Instruction.registerName x == name

def writeRegister (c : Cpu) (name : String) (value : Int) : Except Fault Cpu :=
  match generalRegister? name with
  | some x => .ok (c.setReg x (value % 256))
  | none =>
    if name = "I" then .ok { c with i := value % 65536 }
    else if name = "DT" then .ok { c with delay := value % 256 }
    else if name = "ST" then .ok { c with sound := value % 256 }
    else .error (.unknownRegister name)

def writeRegisters (c : Cpu) : List (String × Int) → Except Fault Cpu
  | [] => .ok c
  | (name, value) :: rest => do writeRegisters (← writeRegister c name value) rest

def initialCpu (config : Config) : Except Fault Cpu :=
  let c := Cpu.initial config.programStart
  writeRegisters
    (match config.pc? with
      | some pc => { c with pc := pc % 65536 }
      | none => c)
    config.registers

/-- The machine that a configuration describes. `seed` starts the random source where the
configuration gives no seed. -/
def build [Host] (config : Config) (seed : Int) : Except Fault Machine := do
  if config.fontAddress < 0 ∨ config.fontAddress + Font.bytes.length > config.memorySize then
    throw (.fontOutsideMemory config.fontAddress config.memorySize)
  let memory ← Ram.create? config.memorySize
  let (registered, bus) := Bus.register 0 (config.memorySize - 1) 0 (Bus.empty.attach (.ram memory))
  registered
  let display ← Display.create? config.displayWidth config.displayHeight
  let (loaded, bus) := Font.load config.fontAddress bus
  loaded
  let cpu ← initialCpu config
  let machine := Machine.create bus display (RandomSource.ofSeed (config.seed?.getD seed))
    config.fontAddress config.programStart
  return { machine with cpu := cpu }

end Chip8.Config
