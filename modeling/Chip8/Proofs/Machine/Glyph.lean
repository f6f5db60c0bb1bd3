import Chip8.Proofs.Config.Start
import Chip8.Proofs.Config.Width
import Chip8.Proofs.Machine.Block
import Chip8.Proofs.Machine.Event
import Chip8.Proofs.Machine.Executing

/-!
Glyphs of the font of a machine that was built from a configuration.

The font is put in memory as a whole when the machine is built, wherever the configuration wants it,
and the machine never forgets where (`Becomes.fontAddress`). So as long as the addresses of the font
show what they showed at first, an instruction that loads a glyph points the index register at all
five bytes of it, the last digit at the end of memory included, and a sprite instruction of five rows
reads and draws these bytes (`glyph_load_points_at_glyph`).
-/

namespace Chip8

def Font.glyph (digit : Nat) : List UInt8 := (bytes.drop (glyphSize * digit)).take glyphSize

theorem Font.length_glyph {digit : Nat} (low : digit < 16) : (glyph digit).length = glyphSize := by
  have size : bytes.length = 80 := rfl
  rw [glyph, List.length_take, List.length_drop, size, glyphSize]
  omega

theorem Font.getElem?_glyph {digit k : Nat} (inside : k < glyphSize) :
    (glyph digit)[k]? = bytes[glyphSize * digit + k]? := by
  rw [glyph, List.getElem?_take_of_lt inside, List.getElem?_drop]

namespace Machine

open Word

variable {m t : Machine} {w : Int} {bytes : List UInt8}

/-- The machines that one can become: events happen to it, and its registers and the source of its
random values are replaced by others. -/
inductive Becomes (m : Machine) : Machine → Prop where
  | start : Becomes m m
  | undergo {t : Machine} (e : Event) : Becomes m t → Becomes m (t.undergo e)
  | assign {t : Machine} (c : Cpu) (random : RandomSource) : Becomes m t →
      Becomes m { t with cpu := c, random := random }

/-- Nothing that happens to a machine makes it forget where its font is. -/
theorem Becomes.fontAddress (becomes : m.Becomes t) : t.fontAddress = m.fontAddress := by
  induction becomes with
  | start => rfl
  | undergo e _ ih => exact (fontAddress_undergo _ e).trans ih
  | assign c random _ ih => exact ih

/-! ### Drawing the bytes at the index register -/

/-- A sprite instruction reads these bytes, and nothing else but itself, and draws them. -/
structure Draws (m : Machine) (w : Int) (bytes : List UInt8) : Prop where
  alone : ∃ m', (Operation.ofWord w).execute m = (.ok (), m') ∧
    m'.bus = m.bus.note (Bus.reads m.cpu.i bytes) ∧
    m'.display = (m.display.drawBytes (m.cpu.reg (x w)) (m.cpu.reg (y w)) bytes).2
  fetched : m.Fetches w → ∃ s m', step m = (.ok s, m') ∧
    s.log.toList = [⟨.read, m.cpu.pc, w / 256⟩, ⟨.read, m.cpu.pc + 1, w % 256⟩] ++
      Bus.reads m.cpu.i bytes ∧
    m'.display = (m.display.drawBytes (m.cpu.reg (x w)) (m.cpu.reg (y w)) bytes).2

/-- A sprite whose rows are held is drawn from exactly these bytes. -/
theorem draws_of_holds (holds : m.bus.Holds m.cpu.i bytes) (g : (group w).val = 0xD)
    (rows : bytes.length = (low w).val) : m.Draws w bytes := by
  have encoded : (Instruction.draw (x w) (y w) (low w)).Encodes w := ⟨g, rfl, rfl, rfl⟩
  have executed := execute_ofWord (Instruction.decode?_eq_some_iff.mpr encoded)
  have draws {m : Machine} (holds : m.bus.Holds m.cpu.i bytes) :=
    drawSprite_of_holds holds (x w) (y w)
  rw [rows] at draws
  constructor
  · rw [executed, Instruction.execute, draws holds]
    exact ⟨_, rfl, rfl, rfl⟩
  · intro fetches
    rw [step_of_word fetches.running fetches.word, executed, Instruction.execute,
      draws (m := m.dropLog.fetched w) holds]
    refine ⟨_, _, rfl, ?_, rfl⟩
    simp [fetched, dropLog, Bus.note, Bus.dropLog]

/-! ### Loading a glyph -/

/-- The digit whose glyph an instruction word loads: the lowest four bits of a register. -/
def digit (m : Machine) (w : Int) : Nat := (m.cpu.reg (x w) % 16).toNat

theorem digit_lt (m : Machine) (w : Int) : m.digit w < 16 := by
  unfold digit
  omega

/-- A glyph load points the index register at a glyph and leaves memory as it was. -/
theorem execute_loadGlyph (m : Machine) (w : Int) :
    (Instruction.loadGlyph (x w)).execute m = (.ok (), { m with
      cpu := { m.cpu with i := m.fontAddress + (Font.glyphSize * m.digit w : Nat) } }) := by
  have nonneg : 0 ≤ m.cpu.reg (x w) % 16 := Int.emod_nonneg _ (by decide)
  simp only [Instruction.execute, Attempt.bind_apply, Attempt.view_apply, setCpu_apply,
    Font.glyphAddress, digit, Int.natCast_mul, Int.toNat_of_nonneg nonneg]

/-- The index register points at the glyph of a digit in a font at `base`, all bytes of which are
there, and a sprite instruction of five rows draws it. -/
structure PointsAtGlyph (base : Int) (digit : Nat) (m : Machine) : Prop where
  index : m.cpu.i = base + 5 * digit
  mapped : ∀ k : Nat, k < 5 → m.bus.Maps (m.cpu.i + k)
  bytes : ∀ k : Nat, k < 5 → ∃ byte, Font.bytes[5 * digit + k]? = some byte ∧
    m.bus.peek? (m.cpu.i + k) = .ok byte
  draws : ∀ w, (group w).val = 0xD → (low w).val = 5 → m.Draws w (Font.glyph digit)

/-- With the font in memory, the address of a glyph points at its bytes. -/
theorem pointsAtGlyph_of_holds {base : Int} {digit : Nat} (small : digit < 16)
    (index : m.cpu.i = base + (Font.glyphSize * digit : Nat))
    (font : m.bus.Holds base Font.bytes) : m.PointsAtGlyph base digit := by
  have glyph : m.bus.Holds m.cpu.i (Font.glyph digit) := by
    rw [index]
    exact font.slice _ _
  have shown : ∀ k : Nat, k < 5 → ∃ byte, Font.bytes[Font.glyphSize * digit + k]? = some byte ∧
      m.bus.peek? (m.cpu.i + k) = .ok byte := by
    intro k inside
    have present : k < (Font.glyph digit).length := by rwa [Font.length_glyph small]
    have found := List.getElem?_eq_getElem present
    exact ⟨_, Font.getElem?_glyph inside ▸ found, glyph k _ found⟩
  refine ⟨by rw [index]; rfl, fun k inside => ?_, shown, fun w g rows => ?_⟩
  · obtain ⟨_, _, peeked⟩ := shown k inside
    exact Bus.maps_of_peek? peeked
  · exact draws_of_holds glyph g ((Font.length_glyph small).trans rows.symm)

end Machine

namespace Config

open Machine Word

/-- On whatever machine comes of one that was built from a configuration, as long as the addresses
of the font show what they showed at first, a glyph load succeeds for every value of its register. It
points the index register at the glyph of the lowest four bits of the value, all five bytes of which
are there, and a sprite instruction of five rows then reads exactly these. -/
theorem glyph_load_points_at_glyph [Host] {config : Config} {seed : Int} {m t : Machine}
    (built : config.build seed = .ok m) (becomes : m.Becomes t)
    (untouched : ∀ k : Nat, k < 80 →
      t.bus.peek? (config.fontAddress + k) = m.bus.peek? (config.fontAddress + k))
    {w : Int} (g : (group w).val = 0xF) (b : byte w = 0x29) :
    t.Executes w (PointsAtGlyph config.fontAddress (t.cpu.reg (x w) % 16).toNat) := by
  have base : t.fontAddress = config.fontAddress :=
    becomes.fontAddress.trans (setup_of_build built).1
  have font : t.bus.Holds config.fontAddress Font.bytes :=
    (memory_of_build built).1.of_peek? untouched
  have encoded : (Instruction.loadGlyph (x w)).Encodes w := ⟨g, b, rfl⟩
  have loaded : t.Executes w fun m' =>
      m'.cpu.i = config.fontAddress + (Font.glyphSize * t.digit w : Nat) ∧
        m'.bus.Holds config.fontAddress Font.bytes := by
    apply executes_of_execute encoded
    · exact ⟨_, execute_loadGlyph t w, base ▸ rfl, font⟩
    · exact ⟨_, execute_loadGlyph (t.dropLog.fetched w) w, base ▸ rfl, font⟩
    · exact fun m' cycles after => after
  refine loaded.mono ?_
  rintro m' ⟨index, held⟩
  exact pointsAtGlyph_of_holds (digit_lt t w) index held

/-- The usual configuration with its font in the last 80 bytes of memory. -/
def fontAtEnd : Config := { default with fontAddress := 0xFB0 }

/-- The last glyph of a font at the end of memory ends with memory. It is drawn as a whole, whatever
was written elsewhere, and for a value beyond the digits too. -/
theorem last_glyph_ends_with_memory : ∃ m, fontAtEnd.build 0 = .ok m ∧
    let t := { m.undergo (.action (.write 0x200 0xF3)) with
      cpu := (Cpu.initial 0x200).setReg 3 0x2F }
    t.Executes 0xF329 fun m' => m'.cpu.i = 0xFFB ∧ m'.bus.peek? 0xFFF = .ok 0x80 ∧
      m'.Draws 0xD015 [0xF0, 0x80, 0xF0, 0x80, 0x80] := by
  obtain ⟨m, built⟩ : ∃ m, fontAtEnd.build 0 = .ok m :=
    exists_build 0 (by decide) (by decide) (by decide) (by decide) rfl
  refine ⟨m, built, ?_⟩
  intro t
  have becomes : m.Becomes t :=
    .assign _ _ (.undergo (.action (.write 0x200 0xF3)) .start)
  have backed := (wellFormed_of_build built).backed
  have here := location?_of_build built (a := 0x200) (by decide) (by decide)
  have bus : t.bus = (m.bus.store 0x200 0xF3).note [⟨.write, 0x200, 0xF3⟩] :=
    congrArg Machine.bus (perform_write backed (Bus.maps_iff.mpr ⟨_, here⟩) (by decide))
  have untouched : ∀ k : Nat, k < 80 →
      t.bus.peek? (fontAtEnd.fontAddress + k) = m.bus.peek? (fontAtEnd.fontAddress + k) := by
    intro k inside
    have font : fontAtEnd.fontAddress = 0xFB0 := rfl
    have size : fontAtEnd.memorySize = 0x1000 := rfl
    have there := location?_of_build built (a := 0xFB0 + k) (by omega) (by omega)
    rw [bus, font, Bus.peek?_note, Bus.peek?_store backed here, there, if_neg]
    simp only [Option.some.injEq, Location.mk.injEq, true_and]
    omega
  refine (glyph_load_points_at_glyph built becomes untouched rfl rfl).mono fun m' points => ?_
  obtain ⟨byte, fifth, last⟩ := points.bytes 4 (by decide)
  have index : m'.cpu.i = 0xFFB := points.index
  rw [index] at last
  obtain rfl : 0x80 = byte := Option.some.inj fifth
  exact ⟨index, last, points.draws 0xD015 rfl rfl⟩

end Config

end Chip8
