import Chip8.Proofs.Config.Build
import Chip8.Proofs.Machine.Address

/-!
The widths of the registers of a machine that was built from a configuration, after any actions.

The registers that hold bytes, the stack and the screen never leave their ranges
(`registers_within_widths`). The program counter and the index register do so exactly for
configurations that put the program start, or the last glyph, beyond 16 bits
(`addresses_within_16_bits_iff`): a reset loads the one and a glyph load the other without a mask.
-/

namespace Chip8.Config

open Machine

variable {data : Datum} {config : Config} {seed : Int} {m : Machine}

/-- What a machine keeps of the configuration that it was built from. -/
theorem setup_of_build [Host] (h : config.build seed = .ok m) :
    m.fontAddress = config.fontAddress ∧ m.programStart = config.programStart ∧
      config.initialCpu = .ok m.cpu ∧ 0 ≤ config.fontAddress ∧
      config.fontAddress + 80 ≤ config.memorySize := by
  obtain ⟨memory, display, cpu, low, high, _, _, initial, rfl⟩ := build_eq_ok_iff.mp h
  exact ⟨rfl, rfl, initial, low, high⟩

/-- A machine starts in range if its program start and its last glyph are. -/
theorem addressed_of_build [Host] (read : (ofDatum data).result = .ok config)
    (built : config.build seed = .ok m) (start : config.programStart ≤ 65535)
    (font : config.fontAddress + 75 ≤ 65535) : m.Addressed := by
  obtain ⟨fontAddress, programStart, initial, low, _⟩ := setup_of_build built
  have inside := programStart_of_ofDatum read
  exact {
    wellFormed_of_build built with
    start := programStart ▸ ⟨inside.1, start⟩
    font_nonneg := fontAddress ▸ low
    font_le := fontAddress ▸ font
    pc := by
      rw [pc_initialCpu initial]
      cases config.pc? with
      | none => exact ⟨inside.1, start⟩
      | some pc => exact isWord_emod pc
    i := isWord_i_initialCpu initial }

/-- Whatever happens to a machine, from whatever source its random values come, the registers, the
stack and the screen stay in their widths; and so do the program counter and the index register if
the memory is not larger than 16 bits can address. -/
theorem registers_within_widths [Host] (read : (ofDatum data).result = .ok config)
    (built : config.build seed = .ok m) (source : RandomSource) (actions : List Action) :
    let m' := { m with random := source }.performAll actions
    m'.cpu.v.toList.length = 16 ∧ m'.cpu.stack.toList.length = 16 ∧
      (∀ x, IsByte (m'.cpu.reg x)) ∧ IsByte m'.cpu.delay ∧ IsByte m'.cpu.sound ∧
      (0 ≤ m'.cpu.sp ∧ m'.cpu.sp ≤ 16) ∧
      (∀ k : Fin 16, IsWord (m'.cpu.stack.get k)) ∧ IsWord m'.cpu.word ∧
      (∀ c ∈ m'.display.cells, c = 0 ∨ c = 1) ∧
      (config.memorySize ≤ 65536 → IsWord m'.cpu.pc ∧ IsWord m'.cpu.i) := by
  intro m'
  have start : { m with random := source }.WellFormed := { wellFormed_of_build built with }
  have kept : m'.WellFormed := start.performAll actions
  have bounded := kept.bounded
  refine ⟨m'.cpu.v.length_toList, m'.cpu.stack.length_toList, bounded.registers, bounded.delay,
    bounded.sound, ⟨bounded.sp_nonneg, bounded.sp_le⟩, bounded.stack, bounded.word, kept.binary, ?_⟩
  intro small
  obtain ⟨_, _, _, _, room⟩ := setup_of_build built
  have inside := programStart_of_ofDatum read
  have addressed : { m with random := source }.Addressed :=
    { addressed_of_build read built (by omega) (by omega) with }
  have inRange := addressed.performAll actions
  exact ⟨inRange.pc, inRange.i⟩

/-- Random values of any size leave the registers of the usual machine in their widths. -/
theorem default_registers_within_widths : ∃ m, default.build 0 = .ok m ∧
    let m' := { m with random := .sequence (fun k => -1000 - k) 0 }.performAll
      [.write 0x200 0xC0, .write 0x201 0xFF, .step, .tick, .step, .reset]
    (∀ x, IsByte (m'.cpu.reg x)) ∧ (0 ≤ m'.cpu.sp ∧ m'.cpu.sp ≤ 16) ∧
      IsWord m'.cpu.pc ∧ IsWord m'.cpu.i := by
  obtain ⟨m, built⟩ : ∃ m, default.build 0 = .ok m :=
    exists_build 0 (by decide) (by decide) (by decide) (by decide) rfl
  have read : (ofDatum (.map [])).result = .ok default := rfl
  refine ⟨m, built, ?_⟩
  obtain ⟨_, _, registers, _, _, sp, _, _, _, addresses⟩ :=
    registers_within_widths read built (.sequence (fun k => -1000 - k) 0)
      [.write 0x200 0xC0, .write 0x201 0xFF, .step, .tick, .step, .reset]
  exact ⟨registers, sp, addresses (by decide)⟩

/-- The addresses of the memory lead to its cells. -/
theorem location?_of_build [Host] (built : config.build seed = .ok m) {a : Int} (low : 0 ≤ a)
    (inside : a < config.memorySize) : m.bus.location? a = some ⟨0, a⟩ := by
  obtain ⟨memory, display, cpu, _, _, created, _, _, rfl⟩ := build_eq_ok_iff.mp built
  have size := (Ram.size_of_create? created).1
  have regions : (Font.load config.fontAddress (Bus.single memory)).2.regions =
      (Bus.single memory).regions :=
    congrArg Prod.fst (Machine.shape_loadFont config.fontAddress (Bus.single memory))
  have covered : (⟨0, memory.size - 1, 0⟩ : Region).Covers a := by
    constructor <;> simp only <;> omega
  refine (Bus.location?_congr regions a).trans ?_
  rw [Bus.location?, Bus.single, locate?, if_pos covered]
  simp

/-- A memory of more than 65536 bytes covers every address that a word can hold, and the next. -/
theorem spansWords_of_build [Host] (built : config.build seed = .ok m)
    (large : 65536 < config.memorySize) : m.SpansWords :=
  fun _ low high => location?_of_build built low (Int.lt_of_le_of_lt high large)

/-- The program counter and the index register stay in 16 bits, whatever happens to a machine, in
exactly those configurations that put the program start and the last glyph into that range. -/
theorem addresses_within_16_bits_iff [Host] (read : (ofDatum data).result = .ok config)
    (built : config.build seed = .ok m) (source : RandomSource) :
    (∀ actions : List Action, (∀ a ∈ actions, a.isRoutine) →
        IsWord ({ m with random := source }.performAll actions).cpu.pc ∧
          IsWord ({ m with random := source }.performAll actions).cpu.i) ↔
      config.programStart ≤ 65535 ∧ config.fontAddress + 75 ≤ 65535 := by
  obtain ⟨fontAddress, programStart, _, _, room⟩ := setup_of_build built
  have inside := programStart_of_ofDatum read
  constructor
  · intro inRange
    have start : config.programStart ≤ 65535 := by
      -- A reset puts the program start into the program counter as it is.
      have reset := (inRange [.reset] (by decide)).1.2
      rwa [← programStart]
    refine ⟨start, ?_⟩
    by_cases font : config.fontAddress + 75 ≤ 65535
    · exact font
    · -- After a reset the program counter is the program start, from where two instructions run.
      have wellFormed : { m with random := source }.reset.WellFormed :=
        { wellFormed_of_build built with bounded := Cpu.bounded_initial m.programStart }
      have spans : m.SpansWords := spansWords_of_build built (by omega)
      have ready : { m with random := source }.reset.Ready :=
        { wellFormed with
          spans := fun a => spans a
          running := rfl
          pc := programStart ▸ ⟨inside.1, start⟩ }
      obtain ⟨actions, routine, last⟩ := exists_run_to_last_glyph ready
      have outside := (inRange (.reset :: actions) fun a mem => by
        rcases List.mem_cons.mp mem with rfl | later
        · rfl
        · exact routine a later).2.2
      rw [← fontAddress]
      exact last ▸ outside
  · rintro ⟨start, font⟩ actions _
    have addressed : { m with random := source }.Addressed :=
      { addressed_of_build read built start font with }
    have inRange := addressed.performAll actions
    exact ⟨inRange.pc, inRange.i⟩

/-- The usual machine keeps its addresses in 16 bits. -/
theorem default_addresses_within_16_bits : ∃ m, default.build 0 = .ok m ∧
    ∀ actions : List Action, (∀ a ∈ actions, a.isRoutine) →
      IsWord ({ m with random := .ofList [] }.performAll actions).cpu.pc ∧
        IsWord ({ m with random := .ofList [] }.performAll actions).cpu.i := by
  obtain ⟨m, built⟩ : ∃ m, default.build 0 = .ok m :=
    exists_build 0 (by decide) (by decide) (by decide) (by decide) rfl
  have read : (ofDatum (.map [])).result = .ok default := rfl
  exact ⟨m, built, (addresses_within_16_bits_iff read built (.ofList [])).mpr
    ⟨by decide, by decide⟩⟩

/-- A configuration with a memory of 17 bits and its programs in the upper half. -/
def wide : Config := { default with memorySize := 0x20000, programStart := 0x10000 }

def wideData : Datum :=
  .map [(.text "memory",
    .map [(.text "size", .int 0x20000), (.text "program_start", .int 0x10000)])]

/-- The machine that is built from wide data starts with a program counter of 17 bits. -/
theorem wide_pc_exceeds_16_bits : (ofDatum wideData).result = .ok wide ∧
    ∃ m, wide.build 0 = .ok m ∧ m.cpu.pc = 0x10000 ∧ ¬ IsWord m.cpu.pc := by
  obtain ⟨m, built⟩ : ∃ m, wide.build 0 = .ok m :=
    exists_build 0 (by decide) (by decide) (by decide) (by decide) rfl
  obtain ⟨_, _, initial, _⟩ := setup_of_build built
  have pc : m.cpu.pc = 0x10000 := pc_initialCpu initial
  refine ⟨rfl, m, built, pc, ?_⟩
  rw [pc]
  decide

end Chip8.Config
