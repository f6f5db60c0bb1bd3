import Chip8.Machine

/-!
What each instruction does to the machine. The program counter already points behind the
instruction when it is executed.

The instructions that go through memory cell by cell (sprites, decimal digits, register blocks)
stop at the first cell that cannot be accessed and leave done what they did up to there.
-/

namespace Chip8

namespace Machine

/-- Draws the rows of a sprite: `rows` of them, from row `row` on, with the upper left corner at a
point. The answer tells whether a lit pixel went dark. -/
def drawRows (x y address : Int) : Nat → Nat → Bool → Attempt Machine Bool
  | 0, _, hit => pure hit
  | rows + 1, row, hit => do
    let bits ← onBus (Bus.read (address + row))
    let dark ← onDisplay (Display.drawRow x (y + row) bits)
    drawRows x y address rows (row + 1) (hit || dark)

/-- Draws a sprite and sets the flag if a lit pixel went dark. -/
def drawSprite (x y : Register) (rows : Nat) : Attempt Machine Unit := do
  let c ← Attempt.view Machine.cpu
  let hit ← drawRows (c.reg x) (c.reg y) c.i rows 0 false
  setCpu fun c => c.setFlag (Cpu.bit hit)

/-- Loads registers from consecutive addresses: `count` of them, from register number `k` on. -/
def loadRegisters (address : Int) : Nat → Nat → Attempt Machine Unit
  | 0, _ => pure ()
  | count + 1, k => do
    let byte ← onBus (Bus.read (address + k))
    setCpu fun c => c.setReg (Cpu.register k) byte.toNat
    loadRegisters address count (k + 1)

def decimalDigits (value : Int) : List Int := [value / 100, value / 10 % 10, value % 10]

/-- Loads the number of the lowest key that is down, or moves the program counter back so that the
instruction is fetched again. -/
def awaitKey (x : Register) : Attempt Machine Unit := do
  let keypad ← Attempt.view Machine.keypad
  match keypad.lowest? with
  | some k => setCpu fun c => c.setReg x k.val
  | none => setCpu fun c => c.movePc (-2)

theorem awaitKey_apply (x : Register) (m : Machine) :
    awaitKey x m = (.ok (), { m with
      cpu := match m.keypad.lowest? with
        | some k => m.cpu.setReg x k.val
        | none => m.cpu.movePc (-2) }) := by
  simp only [awaitKey, Attempt.bind_apply, Attempt.view_apply]
  cases m.keypad.lowest? <;> rfl

/-- Whether the key that a register names by its lowest four bits is down. -/
def namedKeyDown (m : Machine) (x : Register) : Bool :=
  m.keypad.isDown ⟨(m.cpu.reg x % 16).toNat, by omega⟩

end Machine

open Machine in
def Instruction.execute : Instruction → Attempt Machine Unit
  | .clear => onDisplay fun d => ((), d.clear)
  | .ret => onCpu Cpu.ret
  | .jump t => setCpu fun c => { c with pc := t.val }
  | .call t => onCpu (Cpu.call t)
  | .skipIfByte x b => setCpu fun c => c.skipIf (c.reg x == b.toNat)
  | .skipUnlessByte x b => setCpu fun c => c.skipIf (c.reg x != b.toNat)
  | .skipIfEqual x y => setCpu fun c => c.skipIf (c.reg x == c.reg y)
  | .loadByte x b => setCpu fun c => c.setReg x b.toNat
  | .addByte x b => setCpu (Cpu.addByte x b)
  | .copy x y => setCpu (Cpu.combine (fun _ b => b) x y)
  | .or x y => setCpu (Cpu.combine Bits.or x y)
  | .and x y => setCpu (Cpu.combine Bits.and x y)
  | .xor x y => setCpu (Cpu.combine Bits.xor x y)
  | .add x y => setCpu (Cpu.add x y)
  | .sub x y => setCpu (Cpu.sub x y)
  | .shiftRight x => setCpu (Cpu.shiftRight x)
  | .subFrom x y => setCpu (Cpu.subFrom x y)
  | .shiftLeft x => setCpu (Cpu.shiftLeft x)
  | .skipUnlessEqual x y => setCpu fun c => c.skipIf (c.reg x != c.reg y)
  | .loadIndex t => setCpu fun c => { c with i := t.val }
  | .jumpOffset t => setCpu fun c => { c with pc := (t.val + c.jumpOffset) % 65536 }
  | .random x mask => do
    let r ← drawRandom
    setCpu fun c => c.setReg x ((r % 256).toNat &&& mask.toNat : Nat)
  | .draw x y rows => drawSprite x y rows.val
  | .skipIfKey x => do
    let isDown ← Attempt.view fun m => m.namedKeyDown x
    setCpu fun c => c.skipIf isDown
  | .skipUnlessKey x => do
    let isDown ← Attempt.view fun m => m.namedKeyDown x
    setCpu fun c => c.skipIf (!isDown)
  | .readDelay x => setCpu fun c => c.setReg x c.delay
  | .awaitKey x => Machine.awaitKey x
  | .setDelay x => setCpu fun c => { c with delay := c.reg x }
  | .setSound x => setCpu fun c => { c with sound := c.reg x }
  | .addIndex x => setCpu fun c => { c with i := (c.i + c.reg x) % 65536 }
  | .loadGlyph x => do
    let base ← Attempt.view Machine.fontAddress
    setCpu fun c => { c with i := Font.glyphAddress base (c.reg x) }
  | .storeDecimal x => do
    let c ← Attempt.view Machine.cpu
    onBus (Bus.writeFrom c.i (decimalDigits (c.reg x)))
  | .storeRegisters x => do
    let c ← Attempt.view Machine.cpu
    onBus (Bus.writeFrom c.i (c.v.toList.take (x.val + 1)))
  | .loadRegisters x => do
    let c ← Attempt.view Machine.cpu
    Machine.loadRegisters c.i (x.val + 1) 0

/-- Executes an operation. A word that stands for no instruction is reported with the address that
it was fetched from, and nothing else happens. -/
def Operation.execute (o : Operation) : Attempt Machine Unit :=
  match o.instruction? with
  | some i => i.execute
  | none => Attempt.update fun m =>
    { m with reports := m.reports ++ [⟨o.word, m.cpu.currentAddress⟩] }

end Chip8
