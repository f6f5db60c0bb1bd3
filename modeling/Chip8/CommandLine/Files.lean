import Chip8.Text.Quoted

/-!
Files as a program run meets them: the bytes that stand under a name, or the reason of the operating
system for refusing them.
-/

namespace Chip8.CommandLine

open Numeral

/-- A refusal of the operating system: its number and its wording. -/
structure Refusal where
  code : Nat
  wording : String
  deriving DecidableEq, Repr

namespace Refusal

def missing : Refusal := ⟨2, "No such file or directory"⟩

def directory : Refusal := ⟨21, "Is a directory"⟩

def notADirectory : Refusal := ⟨20, "Not a directory"⟩

def nameTooLong : Refusal := ⟨36, "File name too long"⟩

def message (r : Refusal) (name : String) : String :=
  "[Errno " ++ decimal r.code ++ "] " ++ r.wording ++ ": " ++ Text.quoted name

end Refusal

abbrev Files := String → Except Refusal (List UInt8)

end Chip8.CommandLine
