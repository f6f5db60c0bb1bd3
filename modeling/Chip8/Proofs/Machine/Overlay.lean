import Chip8.Proofs.Machine.Block
import Chip8.Proofs.Machine.Failure

/-!
Sprites drawn one after the other.

Whatever registers are set between them, sprites change the screen as one list of inverted pixels
does (`drawAll_flips`). So the order in which they are drawn does not matter for the screen, and
drawing them once more, in any order, takes them off again (`sprites_commute_and_cancel`). The flag
is left out: which sprite meets a lit pixel does depend on the order.
-/

namespace Chip8.Machine

/-- A sprite to be drawn: its upper left corner, the registers that name the corner, the address and
the number of its rows, and how the registers are set for it. Nothing is said of the registers that
do not matter. -/
structure Sprite where
  left : Int
  top : Int
  x : Register
  y : Register
  address : Int
  rows : Fin 16
  place : Cpu → Cpu
  reg_x : ∀ c, (place c).reg x = left
  reg_y : ∀ c, (place c).reg y = top
  index : ∀ c, (place c).i = address

namespace Sprite

def draw (s : Sprite) : Attempt Machine Unit := do
  setCpu s.place
  (Instruction.draw s.x s.y s.rows).execute

/-- Every row of a sprite is mapped. -/
def Mapped (s : Sprite) (b : Bus) : Prop := ∀ k < s.rows.val, b.Maps (s.address + k)

/-- The cells whose pixels a sprite inverts. -/
def cells (s : Sprite) (d : Display) (b : Bus) : List Nat :=
  d.spriteCells s.left s.top (b.shownFrom s.rows.val s.address)

end Sprite

def drawAll : List Sprite → Attempt Machine Unit
  | [] => pure ()
  | s :: rest => do
    s.draw
    drawAll rest

variable {m m' : Machine}

/-- More sprites are drawn on the machine that the first ones left. -/
theorem drawAll_append (m : Machine) (first rest : List Sprite)
    (drawn : drawAll first m = (.ok (), m')) : drawAll (first ++ rest) m = drawAll rest m' := by
  induction first generalizing m with
  | nil =>
      cases drawn
      rfl
  | cons s first ih =>
      rw [drawAll, Attempt.bind_apply] at drawn
      rw [List.cons_append, drawAll, Attempt.bind_apply]
      cases run : s.draw m with
      | mk result next =>
          rw [run] at drawn
          cases result with
          | ok _ => exact ih next drawn
          | error e => cases drawn

/-- A machine became another by inverting pixels; its bus shows the same bytes. -/
structure Flipped (m : Machine) (ks : List Nat) (m' : Machine) : Prop where
  display : m'.display = (m.display.flipEach ks).2
  bus : m'.bus.dropLog = m.bus.dropLog

namespace Flipped

variable {ks : List Nat}

/-- Sprites are made of bytes in memory, so inverting pixels does not change them. -/
theorem cells_eq (h : m.Flipped ks m') (s : Sprite) :
    s.cells m'.display m'.bus = s.cells m.display m.bus := by
  rw [Sprite.cells, Sprite.cells, h.display,
    Display.spriteCells_congr (Display.width_flipEach _ _) (Display.height_flipEach _ _),
    Bus.shownFrom_congr (Bus.peek?_of_dropLog h.bus)]

theorem fitted (h : m.Flipped ks m') (fitted : m.bus.Fitted) : m'.bus.Fitted := by
  have shape : m'.bus.dropLog.shape = m.bus.dropLog.shape := congrArg Bus.shape h.bus
  exact fitted.of_shape shape

theorem mapped (h : m.Flipped ks m') {s : Sprite} (mapped : s.Mapped m.bus) : s.Mapped m'.bus := by
  have regions : m'.bus.dropLog.regions = m.bus.dropLog.regions := congrArg Bus.regions h.bus
  intro k inside
  exact (Bus.maps_congr regions _).mpr (mapped k inside)

end Flipped

/-- A sprite that is mapped can be drawn, and inverts its pixels. -/
theorem draw_flips (fitted : m.bus.Fitted) {s : Sprite} (mapped : s.Mapped m.bus) :
    ∃ m', s.draw m = (.ok (), m') ∧ m.Flipped (s.cells m.display m.bus) m' := by
  have holds := fitted.holds_shownFrom mapped
  rw [← s.index m.cpu] at holds
  have drawn := drawSprite_of_holds (m := { m with cpu := s.place m.cpu }) holds s.x s.y
  rw [Bus.length_shownFrom] at drawn
  refine ⟨_, drawn, ?_, rfl⟩
  simp only [Display.drawBytes_eq, s.reg_x, s.reg_y, s.index]
  rfl

/-- Sprites that are mapped can be drawn one after the other, and invert the pixels of all of
them. -/
theorem drawAll_flips (fitted : m.bus.Fitted) {sprites : List Sprite}
    (mapped : ∀ s ∈ sprites, s.Mapped m.bus) :
    ∃ m', drawAll sprites m = (.ok (), m') ∧
      m.Flipped (sprites.flatMap fun s => s.cells m.display m.bus) m' := by
  induction sprites generalizing m with
  | nil => exact ⟨m, rfl, rfl, rfl⟩
  | cons s sprites ih =>
      obtain ⟨m₁, first, flipped⟩ := draw_flips fitted (mapped s List.mem_cons_self)
      obtain ⟨m₂, rest, flipped'⟩ := ih (flipped.fitted fitted) fun s' later =>
        flipped.mapped (mapped s' (List.mem_cons_of_mem s later))
      refine ⟨m₂, ?_, ?_, ?_⟩
      · rw [drawAll, Attempt.bind_apply, first]
        exact rest
      · -- The first sprite changes neither the size of the screen nor the bytes of the others.
        simp only [flipped.cells_eq] at flipped'
        rw [flipped'.display, flipped.display, List.flatMap_cons, Display.flipEach_append]
      · exact flipped'.bus.trans flipped.bus

/-- On a screen of any size and whatever its cells hold, sprites whose rows are mapped leave the
same screen in whatever order they are drawn, and drawing them again in any order restores the
screen that was there before. None of this can fail. -/
theorem sprites_commute_and_cancel (fitted : m.bus.Fitted) {sprites order : List Sprite}
    (perm : sprites.Perm order) (mapped : ∀ s ∈ sprites, s.Mapped m.bus) :
    ∃ m₁ m₂ m₃, drawAll sprites m = (.ok (), m₁) ∧ drawAll order m = (.ok (), m₂) ∧
      m₂.display = m₁.display ∧
      drawAll (sprites ++ order) m = (.ok (), m₃) ∧ m₃.display = m.display := by
  have mapped' : ∀ s ∈ order, s.Mapped m.bus := fun s mem => mapped s (perm.mem_iff.mpr mem)
  have perm' := perm.flatMap_right fun s => s.cells m.display m.bus
  obtain ⟨m₁, drawn₁, flipped₁⟩ := drawAll_flips fitted mapped
  obtain ⟨m₂, drawn₂, flipped₂⟩ := drawAll_flips fitted mapped'
  obtain ⟨m₃, drawn₃, flipped₃⟩ := drawAll_flips (flipped₁.fitted fitted) fun s mem =>
    flipped₁.mapped (mapped' s mem)
  simp only [flipped₁.cells_eq] at flipped₃
  refine ⟨m₁, m₂, m₃, drawn₁, drawn₂, ?_, ?_, ?_⟩
  · rw [flipped₂.display, flipped₁.display, Display.flipEach_perm _ perm']
  · rw [drawAll_append m sprites order drawn₁, drawn₃]
  · rw [flipped₃.display, flipped₁.display, Display.flipEach_flipEach_perm _ perm']

/-- The registers with a corner in V0 and V1 and an address in the index register. -/
def corner (left top address : Int) (c : Cpu) : Cpu :=
  { (c.setReg (Cpu.register 0) left).setReg (Cpu.register 1) top with i := address }

theorem reg_zero_corner (left top address : Int) (c : Cpu) :
    (corner left top address c).reg (Cpu.register 0) = left := by
  change ((c.setReg (Cpu.register 0) left).setReg (Cpu.register 1) top).reg _ = left
  rw [Cpu.reg_setReg, if_neg (by decide), Cpu.reg_setReg, if_pos rfl]

theorem reg_one_corner (left top address : Int) (c : Cpu) :
    (corner left top address c).reg (Cpu.register 1) = top := by
  change ((c.setReg (Cpu.register 0) left).setReg (Cpu.register 1) top).reg _ = top
  rw [Cpu.reg_setReg, if_pos rfl]

theorem i_corner (left top address : Int) (c : Cpu) : (corner left top address c).i = address := rfl

/-- A sprite in the corner that V0 and V1 name. -/
def Sprite.cornered (left top address : Int) (rows : Fin 16) : Sprite where
  left := left
  top := top
  x := Cpu.register 0
  y := Cpu.register 1
  address := address
  rows := rows
  place := corner left top address
  reg_x := reg_zero_corner left top address
  reg_y := reg_one_corner left top address
  index := i_corner left top address

/-- A machine with a screen of two pixels, the left one lit, and a row for each of them. -/
def overlaying : Machine :=
  { ofImage [0x80, 0x40] (by decide) with
    display := ⟨2, 1, #[1, 0], Nat.two_pos, Nat.one_pos, rfl⟩ }

/-- The rows are drawn in both orders: the screen is the same, the flag is not. -/
theorem overlaying_flag_differs :
    (overlaying.bus.Fitted ∧
      ∀ s ∈ [Sprite.cornered 0 0 0 1, .cornered 0 0 1 1], s.Mapped overlaying.bus) ∧
    ∃ m₁ m₂, drawAll [.cornered 0 0 0 1, .cornered 0 0 1 1] overlaying = (.ok (), m₁) ∧
      drawAll [.cornered 0 0 1 1, .cornered 0 0 0 1] overlaying = (.ok (), m₂) ∧
      m₂.display = m₁.display ∧ m₁.cpu.flag = 0 ∧ m₂.cpu.flag = 1 := by
  have fitted : overlaying.bus.Fitted :=
    (ofRams_ofImage [0x80, 0x40] (by decide)).backed.fitted
  have mapped : ∀ s ∈ [Sprite.cornered 0 0 0 1, .cornered 0 0 1 1], s.Mapped overlaying.bus := by
    intro s mem
    simp only [List.mem_cons, List.not_mem_nil, or_false] at mem
    rcases mem with rfl | rfl
    · exact (by decide : ∀ k < 1, overlaying.bus.Maps (0 + (k : Nat)))
    · exact (by decide : ∀ k < 1, overlaying.bus.Maps (1 + (k : Nat)))
  obtain ⟨m₁, m₂, _, drawn, drawn', same, _⟩ :=
    sprites_commute_and_cancel fitted (.swap (.cornered 0 0 1 1) (.cornered 0 0 0 1) []) mapped
  have left : (drawAll [.cornered 0 0 0 1, .cornered 0 0 1 1] overlaying).2.cpu.flag = 0 := rfl
  have right : (drawAll [.cornered 0 0 1 1, .cornered 0 0 0 1] overlaying).2.cpu.flag = 1 := rfl
  rw [drawn] at left
  rw [drawn'] at right
  exact ⟨⟨fitted, mapped⟩, m₁, m₂, drawn, drawn', same, left, right⟩

end Chip8.Machine
