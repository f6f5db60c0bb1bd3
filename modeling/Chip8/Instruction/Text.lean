import Chip8.Instruction.Decode
import Chip8.Numeral

/-!
Assembly text: the mnemonic and operands of an instruction, and the operation that a word stands
for as traces and listings show it. A word that stands for no instruction is shown as `UNKNOWN`.
-/

namespace Chip8

open Numeral

namespace Instruction

def registerName (x : Register) : String := "V" ++ hex 1 x.val

def targetText (t : Target) : String := "$" ++ hex 3 t.val

def byteText (b : UInt8) : String := "#$" ++ hex 2 b.toNat

def mnemonic : Instruction → String
  | .clear => "CLS"
  | .ret => "RET"
  | .jump _ | .jumpOffset _ => "JP"
  | .call _ => "CALL"
  | .skipIfByte _ _ | .skipIfEqual _ _ => "SE"
  | .skipUnlessByte _ _ | .skipUnlessEqual _ _ => "SNE"
  | .loadByte _ _ | .copy _ _ | .loadIndex _ | .readDelay _ | .awaitKey _ | .setDelay _
  | .setSound _ | .loadGlyph _ | .storeDecimal _ | .storeRegisters _ | .loadRegisters _ => "LD"
  | .addByte _ _ | .add _ _ | .addIndex _ => "ADD"
  | .or _ _ => "OR"
  | .and _ _ => "AND"
  | .xor _ _ => "XOR"
  | .sub _ _ => "SUB"
  | .shiftRight _ => "SHR"
  | .subFrom _ _ => "SUBN"
  | .shiftLeft _ => "SHL"
  | .random _ _ => "RND"
  | .draw _ _ _ => "DRW"
  | .skipIfKey _ => "SKP"
  | .skipUnlessKey _ => "SKNP"

def operands : Instruction → List String
  | .clear | .ret => []
  | .jump t | .call t => [targetText t]
  | .skipIfByte x b | .skipUnlessByte x b | .loadByte x b | .addByte x b | .random x b =>
    [registerName x, byteText b]
  | .skipIfEqual x y | .skipUnlessEqual x y | .copy x y | .or x y | .and x y | .xor x y | .add x y
  | .sub x y | .subFrom x y => [registerName x, registerName y]
  | .shiftRight x | .shiftLeft x | .skipIfKey x | .skipUnlessKey x => [registerName x]
  | .loadIndex t => ["I", targetText t]
  | .jumpOffset t => ["V0", targetText t]
  | .draw x y rows => [registerName x, registerName y, "#" ++ decimal rows.val]
  | .readDelay x => [registerName x, "DT"]
  | .awaitKey x => [registerName x, "K"]
  | .setDelay x => ["DT", registerName x]
  | .setSound x => ["ST", registerName x]
  | .addIndex x => ["I", registerName x]
  | .loadGlyph x => ["F", registerName x]
  | .storeDecimal x => ["B", registerName x]
  | .storeRegisters x => ["[I]", registerName x]
  | .loadRegisters x => [registerName x, "[I]"]

end Instruction

/-- A word together with the instruction that it stands for, if any. -/
structure Operation where
  word : Int
  instruction? : Option Instruction
  deriving DecidableEq, Repr

namespace Operation

def ofWord (w : Int) : Operation := ⟨w, Instruction.decode? w⟩

def hexWord (o : Operation) : String := hex 4 o.word

/-- The mnemonic, `UNKNOWN` if the word stands for no instruction. -/
def mnemonic (o : Operation) : String :=
  match o.instruction? with
  | some i => i.mnemonic
  | none => "UNKNOWN"

/-- The operands; of an unknown word the word itself. -/
def operands (o : Operation) : List String :=
  match o.instruction? with
  | some i => i.operands
  | none => ["$" ++ o.hexWord]

/-- The assembly text: mnemonic, then the operands with commas between them. -/
def text (o : Operation) : String :=
  match o.operands with
  | [] => o.mnemonic
  | os => o.mnemonic ++ " " ++ ", ".intercalate os

def cycles (_ : Operation) : Nat := 1

def length (_ : Operation) : Nat := 2

end Operation

/-- The report of a word that stands for no instruction, and the address it was fetched from. -/
structure UnknownWord where
  word : Int
  address : Int
  deriving DecidableEq, Repr

def UnknownWord.message (u : UnknownWord) : String :=
  "Unknown instruction " ++ hex 4 u.word ++ " at " ++ taggedHex 5 u.address

end Chip8
