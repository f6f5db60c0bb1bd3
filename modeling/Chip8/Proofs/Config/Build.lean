import Chip8.Config.Build
import Chip8.Proofs.Config.Reading
import Chip8.Proofs.Display.Pixel
import Chip8.Proofs.Machine.Action
import Chip8.Proofs.Memory.Image

/-!
The machine that a configuration describes, as a function of the parts that were made for it
(`build_eq_ok_iff`): the font lies inside memory, and memory, display and initial registers could be
made. Such a machine is well-formed (`wellFormed_of_build`) and its one memory is mapped on the
addresses below its size (`maps_of_build`).
-/

namespace Chip8

/-! ### The parts -/

theorem Ram.size_of_create? [Host] {size : Int} {memory : Ram} (h : create? size = .ok memory) :
    (memory.size : Int) = size ∧ memory.label = .ram := by
  unfold create? at h
  split at h
  · rename_i positive
    split at h
    · cases h
    · cases h
      refine ⟨?_, rfl⟩
      simp only [Ram.size, Cells.size_zero]
      omega
  · cases h

/-- A memory of a positive size that there is room for can be built. -/
theorem Ram.exists_of_count [Host] {size : Int} (positive : 0 < size)
    (room : Cells.countFault? size.toNat = none) : ∃ memory, create? size = .ok memory := by
  refine ⟨⟨Cells.zero size.toNat, by simpa using positive, false⟩, ?_⟩
  rw [create?, dif_pos positive]
  simp only [room]

/-- A screen of a positive size that there is room for can be built. -/
theorem Display.exists_of_count [Host] {width height : Int} (positive : 0 < width ∧ 0 < height)
    (room : Cells.countFault? (width.toNat * height.toNat) = none) :
    ∃ display, create? width height = .ok display := by
  refine ⟨⟨width.toNat, height.toNat, Cells.zero (width.toNat * height.toNat), by omega, by omega,
    by simp⟩, ?_⟩
  rw [create?, dif_pos positive]
  simp only [room]

namespace Bus

/-- Loading a font leaves a bus of memories one. -/
theorem OfRams.keeps_loadFont (base : Int) : (Font.load base).Keeps OfRams := by
  unfold Font.load
  refine (OfRams.keeps_writeFrom base _).bind ?_
  intro _ b rams
  exact rams.takeLog

/-- The font can be loaded where all of its addresses are covered. -/
theorem load_font_of_maps {b : Bus} (hb : b.Backed) {base : Int}
    (mapped : ∀ k < Font.bytes.length, b.Maps (base + k)) :
    Font.load base b = (.ok (), (b.storeFrom base (values Font.bytes)).dropLog) := by
  rw [Font.load, Attempt.bind_apply, ← values, writeFrom_values hb,
    transferFault?_eq_none_iff.mpr mapped, reach_of_maps mapped, List.take_length]
  -- The last step holds for any bytes, and is not to be checked by storing these.
  generalize values Font.bytes = bytes
  rfl

end Bus

namespace Config

variable {config : Config} {c c' : Cpu}

/-! ### Initial registers -/

/-- A name of a general register is the one that listings show. -/
theorem registerName_of_generalRegister? {name : String} {x : Register}
    (h : generalRegister? name = some x) : name = Instruction.registerName x := by
  have found := List.find?_some h
  exact (beq_iff_eq.mp found).symm

/-- A register is set in its width, and no other changes. -/
theorem writeRegister_cases {name : String} {value : Int}
    (h : writeRegister c name value = .ok c') :
    (∃ x, name = Instruction.registerName x ∧ c' = c.setReg x (value % 256)) ∨
      (name = "I" ∧ c' = { c with i := value % 65536 }) ∨
      (name = "DT" ∧ c' = { c with delay := value % 256 }) ∨
      (name = "ST" ∧ c' = { c with sound := value % 256 }) := by
  unfold writeRegister at h
  cases general : generalRegister? name with
  | some x =>
      simp only [general, Except.ok.injEq] at h
      exact .inl ⟨x, registerName_of_generalRegister? general, h.symm⟩
  | none =>
      simp only [general] at h
      by_cases index : name = "I"
      · simp only [if_pos index, Except.ok.injEq] at h
        exact .inr (.inl ⟨index, h.symm⟩)
      · by_cases delay : name = "DT"
        · simp only [if_neg index, if_pos delay, Except.ok.injEq] at h
          exact .inr (.inr (.inl ⟨delay, h.symm⟩))
        · by_cases sound : name = "ST"
          · simp only [if_neg index, if_neg delay, if_pos sound, Except.ok.injEq] at h
            exact .inr (.inr (.inr ⟨sound, h.symm⟩))
          · simp only [if_neg index, if_neg delay, if_neg sound, reduceCtorEq] at h

theorem bounded_writeRegister (h : c.Bounded) {name : String} {value : Int}
    (written : writeRegister c name value = .ok c') : c'.Bounded := by
  rcases writeRegister_cases written with ⟨x, _, rfl⟩ | ⟨_, rfl⟩ | ⟨_, rfl⟩ | ⟨_, rfl⟩
  · exact h.setReg x (isByte_emod value)
  · exact { h with }
  · exact { h with delay := isByte_emod value }
  · exact { h with sound := isByte_emod value }

theorem pc_writeRegister {name : String} {value : Int}
    (written : writeRegister c name value = .ok c') : c'.pc = c.pc := by
  rcases writeRegister_cases written with ⟨x, _, rfl⟩ | ⟨_, rfl⟩ | ⟨_, rfl⟩ | ⟨_, rfl⟩ <;> rfl

theorem isWord_i_writeRegister (h : IsWord c.i) {name : String} {value : Int}
    (written : writeRegister c name value = .ok c') : IsWord c'.i := by
  rcases writeRegister_cases written with ⟨x, _, rfl⟩ | ⟨_, rfl⟩ | ⟨_, rfl⟩ | ⟨_, rfl⟩
  · exact h
  · exact isWord_emod value
  · exact h
  · exact h

/-- What setting one register keeps, setting any number of them keeps. -/
theorem writeRegisters_induction {P : Cpu → Prop}
    (preserved : ∀ c c' name value, P c → writeRegister c name value = .ok c' → P c')
    {registers : List (String × Int)} (h : P c) (written : writeRegisters c registers = .ok c') :
    P c' := by
  induction registers generalizing c with
  | nil =>
      cases written
      exact h
  | cons entry registers ih =>
      obtain ⟨name, value⟩ := entry
      rw [writeRegisters] at written
      cases first : writeRegister c name value with
      | ok next =>
          rw [first] at written
          exact ih (preserved c next name value h first) written
      | error e =>
          rw [first] at written
          cases written

/-- Whatever values a configuration gives to registers, they start within their widths. -/
theorem bounded_initialCpu (h : initialCpu config = .ok c) : c.Bounded := by
  refine writeRegisters_induction (fun _ _ _ _ h w => bounded_writeRegister h w) ?_ h
  cases config.pc? with
  | none => exact Cpu.bounded_initial config.programStart
  | some pc => exact { Cpu.bounded_initial config.programStart with }

theorem isWord_i_initialCpu (h : initialCpu config = .ok c) : IsWord c.i := by
  refine writeRegisters_induction (P := fun c => IsWord c.i)
    (fun _ _ _ _ h w => isWord_i_writeRegister h w) ?_ h
  cases config.pc? <;> exact isWord_emod 0

/-- The initial program counter is the one that is set, in 16 bits, or else the program start. -/
theorem pc_initialCpu (h : initialCpu config = .ok c) :
    c.pc = match config.pc? with
      | some pc => pc % 65536
      | none => config.programStart := by
  refine writeRegisters_induction (P := fun c => c.pc = match config.pc? with
    | some pc => pc % 65536
    | none => config.programStart) (fun _ _ _ _ h w => (pc_writeRegister w).trans h) ?_ h
  cases config.pc? <;> rfl

/-- No setting halts the processor. -/
theorem halted_initialCpu (h : initialCpu config = .ok c) : c.halted = false := by
  refine writeRegisters_induction (P := fun c => c.halted = false) ?_ ?_ h
  · intro c c' name value running written
    rcases writeRegister_cases written with ⟨x, _, rfl⟩ | ⟨_, rfl⟩ | ⟨_, rfl⟩ | ⟨_, rfl⟩ <;>
      exact running
  · cases config.pc? <;> rfl

/-- Registers that cannot be set are a bad value: a name stands for none of them. -/
theorem kind_of_writeRegisters {registers : List (String × Int)} {e : Fault}
    (h : writeRegisters c registers = .error e) : e.kind = .badValue := by
  induction registers generalizing c with
  | nil => cases h
  | cons entry registers ih =>
      obtain ⟨name, value⟩ := entry
      rw [writeRegisters, bind_eq_error_iff] at h
      rcases h with unknown | ⟨next, _, later⟩
      · unfold writeRegister at unknown
        split at unknown
        · cases unknown
        · repeat' split at unknown
          all_goals cases unknown
          rfl
      · exact ih later

/-! ### The machine -/

section Host

variable [Host]

/-- There is room for the memory and the display. -/
def HasRoom (config : Config) : Prop :=
  Cells.countFault? config.memorySize.toNat = none ∧
    Cells.countFault? (config.displayWidth.toNat * config.displayHeight.toNat) = none

instance (config : Config) : Decidable config.HasRoom := inferInstanceAs (Decidable (_ ∧ _))

/-- The memory that was made for a configuration is registered behind the range of its size. -/
theorem register_of_create {memory : Ram} (created : Ram.create? config.memorySize = .ok memory) :
    Bus.register 0 (config.memorySize - 1) 0 (Bus.empty.attach (.ram memory)) =
      (.ok (), Bus.single memory) := by
  rw [← (Ram.size_of_create? created).1]
  exact Bus.register_single memory

/-- A font that lies inside the memory can be loaded into it. -/
theorem load_font_of_create {memory : Ram} (created : Ram.create? config.memorySize = .ok memory)
    (low : 0 ≤ config.fontAddress)
    (high : config.fontAddress + Font.bytes.length ≤ config.memorySize) :
    Font.load config.fontAddress (Bus.single memory) =
      (.ok (), (Font.load config.fontAddress (Bus.single memory)).2) := by
  have size := (Ram.size_of_create? created).1
  rw [Bus.load_font_of_maps (Bus.ofRams_single memory).backed fun k hk =>
    Bus.maps_single.mpr ⟨by omega, by omega⟩]

/-- A configuration can be built exactly if the font lies inside memory and every part can be
made; the machine is then put together from the parts. -/
theorem build_eq_ok_iff {seed : Int} {m : Machine} :
    config.build seed = .ok m ↔
      ∃ memory display cpu,
        0 ≤ config.fontAddress ∧ config.fontAddress + Font.bytes.length ≤ config.memorySize ∧
        Ram.create? config.memorySize = .ok memory ∧
        Display.create? config.displayWidth config.displayHeight = .ok display ∧
        config.initialCpu = .ok cpu ∧
        m = { Machine.create (Font.load config.fontAddress (Bus.single memory)).2 display
                (RandomSource.ofSeed (config.seed?.getD seed)) config.fontAddress
                config.programStart with cpu := cpu } := by
  constructor
  · intro built
    unfold build at built
    split at built
    · cases built
    · rename_i outside
      have low : 0 ≤ config.fontAddress := by omega
      have high : config.fontAddress + Font.bytes.length ≤ config.memorySize := by omega
      -- Of the five steps two cannot fail: the memory is registered, and the font fits into it.
      simp only [bind_eq_ok_iff] at built
      obtain ⟨memory, created, built⟩ := built
      rw [register_of_create created] at built
      simp only at built
      obtain ⟨_, _, display, screen, built⟩ := built
      rw [load_font_of_create created low high] at built
      simp only at built
      obtain ⟨_, _, cpu, initial, built⟩ := built
      exact ⟨memory, display, cpu, low, high, created, screen, initial, (Except.ok.inj built).symm⟩
  · rintro ⟨memory, display, cpu, low, high, created, screen, initial, rfl⟩
    unfold build
    rw [if_neg (by omega), bind_eq_ok_iff]
    refine ⟨memory, created, ?_⟩
    rw [register_of_create created]
    simp only
    rw [bind_eq_ok_iff]
    refine ⟨(), rfl, ?_⟩
    rw [bind_eq_ok_iff]
    refine ⟨display, screen, ?_⟩
    rw [load_font_of_create created low high]
    simp only
    rw [bind_eq_ok_iff]
    refine ⟨(), rfl, ?_⟩
    rw [bind_eq_ok_iff]
    exact ⟨cpu, initial, rfl⟩

/-- A configuration with its font inside memory, of parts for which there is room, can be built. -/
theorem exists_build (seed : Int) {cpu : Cpu} (low : 0 ≤ config.fontAddress)
    (high : config.fontAddress + Font.bytes.length ≤ config.memorySize) (room : config.HasRoom)
    (screen : 0 < config.displayWidth ∧ 0 < config.displayHeight)
    (initial : config.initialCpu = .ok cpu) : ∃ m, config.build seed = .ok m := by
  have font : 0 < Font.bytes.length := by decide
  obtain ⟨memory, created⟩ := Ram.exists_of_count (show 0 < config.memorySize by omega) room.1
  obtain ⟨display, made⟩ := Display.exists_of_count screen room.2
  exact ⟨_, build_eq_ok_iff.mpr ⟨memory, display, cpu, low, high, created, made, initial, rfl⟩⟩

/-- A machine that was built is well-formed. -/
theorem wellFormed_of_build {seed : Int} {m : Machine} (h : config.build seed = .ok m) :
    m.WellFormed := by
  obtain ⟨memory, display, cpu, _, _, _, screen, initial, rfl⟩ := build_eq_ok_iff.mp h
  exact {
    backed := (Bus.OfRams.keeps_loadFont config.fontAddress _ (Bus.ofRams_single memory)).backed
    bounded := bounded_initialCpu initial
    binary := Display.isBinary_of_create? screen }

/-- The addresses below the size of the memory, and no others, are mapped. -/
theorem maps_of_build {seed : Int} {m : Machine} (h : config.build seed = .ok m) {a : Int} :
    m.bus.Maps a ↔ 0 ≤ a ∧ a < config.memorySize := by
  obtain ⟨memory, display, cpu, _, _, created, _, _, rfl⟩ := build_eq_ok_iff.mp h
  have regions : (Font.load config.fontAddress (Bus.single memory)).2.regions =
      (Bus.single memory).regions :=
    congrArg Prod.fst (Machine.shape_loadFont config.fontAddress (Bus.single memory))
  rw [← (Ram.size_of_create? created).1]
  exact (Bus.maps_congr regions a).trans Bus.maps_single

/-- The addresses of a machine end where its memory does. -/
theorem mappedEnd_of_build {seed : Int} {m : Machine} (h : config.build seed = .ok m) :
    (m.bus.mappedEnd : Int) = config.memorySize := by
  obtain ⟨memory, display, cpu, low, high, _⟩ := build_eq_ok_iff.mp h
  exact (wellFormed_of_build h).backed.mappedEnd_eq (by omega) fun _ => maps_of_build h

/-- Where there is room, a configuration that cannot be built holds a bad value. -/
theorem kind_of_build {seed : Int} {e : Fault} (room : config.HasRoom)
    (h : config.build seed = .error e) : e.kind = .badValue := by
  obtain ⟨space, pixels⟩ := room
  unfold build at h
  split at h
  · cases h
    rfl
  rename_i outside
  rcases bind_eq_error_iff.mp h with noMemory | ⟨memory, created, h⟩
  · unfold Ram.create? at noMemory
    split at noMemory
    · rw [space] at noMemory
      cases noMemory
    · cases noMemory
      rfl
  · rw [register_of_create created] at h
    rcases bind_eq_error_iff.mp h with refused | ⟨_, _, h⟩
    · cases refused
    rcases bind_eq_error_iff.mp h with noDisplay | ⟨display, _, h⟩
    · unfold Display.create? at noDisplay
      split at noDisplay
      · rw [pixels] at noDisplay
        cases noDisplay
      · cases noDisplay
        rfl
    simp only at h
    rw [load_font_of_create created (by omega) (by omega)] at h
    rcases bind_eq_error_iff.mp h with refused | ⟨_, _, h⟩
    · cases refused
    rcases bind_eq_error_iff.mp h with unknown | ⟨cpu, _, h⟩
    · exact kind_of_writeRegisters unknown
    · cases h

end Host

end Config

end Chip8
