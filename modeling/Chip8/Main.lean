import Chip8.CommandLine

/-!
The program: reads the files that its arguments name, runs, and prints the report.
-/

namespace Chip8.CommandLine

def refusalOf : IO.Error → Refusal
  | .noFileOrDirectory _ _ _ => .missing
  | .inappropriateType _ code _ => if code.toNat = Refusal.directory.code then .directory
    else .notADirectory
  | .permissionDenied _ code wording | .invalidArgument _ code wording
  | .resourceExhausted _ code wording => ⟨code.toNat, wording⟩
  | e => ⟨0, toString e⟩

def contentsOf (name : String) : IO (Except Refusal (List UInt8)) := do
  try
    let bytes ← IO.FS.readBinFile ⟨name⟩
    return .ok bytes.toList
  catch e =>
    return .error (refusalOf e)

def filesFor (o : Options) : IO Files := do
  let image ← contentsOf o.image
  let config ← contentsOf (o.config?.getD "")
  return fun name => if name = o.image then image else config

def printReport (r : Report) : IO UInt32 := do
  for w in r.warnings do IO.eprintln ("warning: " ++ w)
  IO.print r.output
  IO.eprint r.errors
  return r.exitCode.toUInt32

end Chip8.CommandLine

open Chip8.CommandLine in
def main (args : List String) : IO UInt32 := do
  match Request.ofArguments args with
  | .wrongUsage =>
    IO.eprintln usage
    return 2
  | .help =>
    IO.println usage
    return 0
  | .run o =>
    let files ← filesFor o
    let seed ← IO.rand 0 0x3fffffffffffffff
    match run files seed o with
    | .report r => printReport r
    | .aborted output warnings cause => printReport ⟨1, output, cause.message ++ "\n", warnings⟩
