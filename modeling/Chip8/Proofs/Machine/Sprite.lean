import Chip8.Proofs.Display.Sprite
import Chip8.Proofs.Machine.Block
import Chip8.Proofs.Machine.Executing

/-!
The law of drawing: what a sprite instruction leaves on a screen of any size, and when it sets the
flag (`draw_inverts_pixels`).

The coordinates are taken before the instruction, so it does not matter that VF may be one of them.
Bits of the sprite may meet in one pixel; each of them inverts it.
-/

namespace Chip8.Machine

open Word

variable {m : Machine} {w : Int}

/-- Whether bit `7 - k` is set in the byte `r` addresses behind the index register. -/
def spriteBit (m : Machine) (r k : Nat) : Bool :=
  match m.bus.peek? (m.cpu.i + r) with
  | .ok byte => Display.rowBit byte k
  | .error _ => false

/-- How many bits of the sprite that an instruction word draws wrap around to a pixel. -/
def inversions (m : Machine) (w : Int) (p q : Nat) : Nat :=
  m.display.inversions (m.cpu.reg (x w)) (m.cpu.reg (y w)) m.spriteBit (low w).val p q

/-- The value of some pixel and the number of bits that wrap around to it make 2 together. -/
def Collides (m : Machine) (w : Int) : Prop :=
  ∃ p < m.display.width, ∃ q < m.display.height, ∃ old, m.display.pixel? p q = .ok old ∧
    2 ≤ old.toNat + m.inversions w p q

/-- A machine became another by drawing the sprite of an instruction word. -/
structure Drawn (m : Machine) (w : Int) (m' : Machine) : Prop where
  width : m'.display.width = m.display.width
  height : m'.display.height = m.display.height
  pixels : ∀ p < m.display.width, ∀ q < m.display.height, ∃ old, m.display.pixel? p q = .ok old ∧
    m'.display.pixel? p q = .ok (old ^^^ UInt8.ofNat (m.inversions w p q % 2))
  collision : m.Collides w → m'.cpu.flag = 1
  noCollision : ¬ m.Collides w → m'.cpu.flag = 0

/-- The bits of bytes that the bus holds are those of the sprite. -/
theorem inversions_eq {bytes : List UInt8} (holds : m.bus.Holds m.cpu.i bytes)
    (length : bytes.length = (low w).val) (p q : Nat) :
    m.inversions w p q =
      m.display.inversions (m.cpu.reg (x w)) (m.cpu.reg (y w)) (Display.bitOf bytes)
        bytes.length p q := by
  rw [inversions, ← length]
  apply Display.inversions_congr
  intro r inside k _
  have found : bytes[r]? = some bytes[r] := List.getElem?_eq_getElem inside
  rw [spriteBit, holds r bytes[r] found, Display.bitOf, List.getD_eq_getElem?_getD, found,
    Option.getD_some]

theorem flag_setFlag_bit (c : Cpu) (p : Bool) : (c.setFlag (Cpu.bit p)).flag = Cpu.bit p := by
  rw [Cpu.flag, Cpu.setFlag, Cpu.reg_setReg, if_pos rfl]
  cases p <;> rfl

/-- A sprite that the bus holds is drawn. -/
theorem execute_draw (binary : m.display.IsBinary) (fitted : m.bus.Fitted)
    (mapped : ∀ r < (low w).val, m.bus.Maps (m.cpu.i + r)) :
    ∃ m', (Instruction.draw (x w) (y w) (low w)).execute m = (.ok (), m') ∧ m.Drawn w m' := by
  obtain ⟨bytes, length, holds⟩ := fitted.exists_holds mapped
  have count := inversions_eq holds length
  have collides : m.Collides w ↔
      (m.display.drawBytes (m.cpu.reg (x w)) (m.cpu.reg (y w)) bytes).1 = true := by
    rw [Display.drawBytes_hits_iff binary]
    simp only [Collides, count]
  rw [Instruction.execute, ← length]
  refine ⟨_, drawSprite_of_holds holds (x w) (y w), ?_, ?_, ?_, ?_, ?_⟩
  · simp only [Display.drawBytes_eq, Display.width_flipEach]
  · simp only [Display.drawBytes_eq, Display.height_flipEach]
  · intro p hp q hq
    rw [count]
    exact Display.pixel?_drawBytes hp hq _ _ bytes
  · intro collision
    rw [flag_setFlag_bit, collides.mp collision]
    rfl
  · intro noCollision
    rw [flag_setFlag_bit, Bool.eq_false_iff.mpr (mt collides.mpr noCollision)]
    rfl

/-- Drawing a sprite all of whose bytes are mapped, on a binary screen of any size, inverts each
pixel as often as bits of the sprite wrap around to it, and sets the flag to 1 if the value of some
pixel and that number make 2 together, to 0 otherwise. It cannot fail. -/
theorem draw_inverts_pixels (binary : m.display.IsBinary) (fitted : m.bus.Fitted)
    (g : (group w).val = 0xD) (mapped : ∀ r < (low w).val, m.bus.Maps (m.cpu.i + r)) :
    m.Executes w (m.Drawn w) := by
  have encoded : (Instruction.draw (x w) (y w) (low w)).Encodes w := ⟨g, rfl, rfl, rfl⟩
  apply executes_of_execute encoded
  · exact execute_draw binary fitted mapped
  · obtain ⟨m', executed, drawn⟩ :=
      execute_draw (m := m.dropLog.fetched w) (w := w) binary fitted mapped
    exact ⟨m', executed, { drawn with }⟩
  · intro m' cycles drawn
    exact { drawn with }

/-- A machine about to draw a row of seven pixels on a screen of two, in the column that VF names. -/
def drawingAround : Machine :=
  { ofImage [0xDF, 0xF1, 0xFE] (by decide) with
    cpu := { (Cpu.initial 0).setReg (Cpu.register 15) 7 with i := 2 }
    display := ⟨2, 1, Cells.zero 2, Nat.two_pos, Nat.one_pos, rfl⟩ }

/-- The row goes around the screen and meets itself: it inverts one pixel three times and the other
four times. -/
theorem drawingAround_meets_itself :
    (drawingAround.display.IsBinary ∧ drawingAround.bus.Fitted ∧
      ∀ r < (low 0xDFF1).val, drawingAround.bus.Maps (drawingAround.cpu.i + r)) ∧
    ∃ s m', step drawingAround = (.ok s, m') ∧ m'.display.pixel? 0 0 = .ok 1 ∧
      m'.display.pixel? 1 0 = .ok 0 ∧ m'.cpu.flag = 1 := by
  have binary : drawingAround.display.IsBinary := by
    intro c mem
    exact .inl (Array.mem_replicate.mp mem).2
  have fitted : drawingAround.bus.Fitted :=
    (ofRams_ofImage [0xDF, 0xF1, 0xFE] (by decide)).backed.fitted
  have mapped : ∀ r < (low 0xDFF1).val, drawingAround.bus.Maps (drawingAround.cpu.i + r) := by
    decide
  have dark : ∀ p < 2, drawingAround.display.pixel? (p : Nat) 0 = .ok 0 := by decide
  refine ⟨⟨binary, fitted, mapped⟩, ?_⟩
  obtain ⟨s, m', stepped, drawn⟩ :=
    (draw_inverts_pixels (w := 0xDFF1) binary fitted rfl mapped).fetched ⟨rfl, rfl⟩
  have pixel (p : Nat) (hp : p < 2) : m'.display.pixel? p 0 =
      .ok (UInt8.ofNat (drawingAround.inversions 0xDFF1 p 0 % 2)) := by
    obtain ⟨old, before, after⟩ := drawn.pixels p hp 0 Nat.one_pos
    obtain rfl : 0 = old := Except.ok.inj ((dark p hp).symm.trans before)
    rw [UInt8.zero_xor] at after
    exact after
  refine ⟨s, m', stepped, ?_, ?_, ?_⟩
  · exact pixel 0 (by decide)
  · exact pixel 1 (by decide)
  · exact drawn.collision ⟨0, by decide, 0, by decide, 0, by decide, by decide⟩

end Chip8.Machine
