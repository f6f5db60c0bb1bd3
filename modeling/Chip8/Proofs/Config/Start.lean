import Chip8.Proofs.Config.Build

/-!
Where a machine starts that was built from a configuration.

Setting registers by name leaves each with the last value given under its name
(`assigned_writeRegisters`), so the order of the entries of a mapping does not matter. Together with
the parts that were made for the configuration this says which configurations can be built, and with
which registers, memory and screen (`build_starts_as_configured`).
-/

namespace Chip8

/-! ### New parts -/

/-- A new memory shows zero wherever it is mapped. -/
theorem Bus.peek?_single_of_fresh {memory : Ram} (fresh : memory.Fresh) {a : Int}
    (mapped : (single memory).Maps a) : (single memory).peek? a = .ok 0 := by
  have alone : single memory = Bus.empty.withRam 0 memory := by
    simp [single, withRam, attach, empty]
  obtain ⟨l, here⟩ := maps_iff.mp mapped
  rw [peek?_of_location (ofRams_single memory).backed here, alone,
    byteAt_withRam Bus.empty 0 fresh mounted_empty.zero l]

namespace Config

variable {config : Config} {seed : Int} {m : Machine}

/-! ### Names of registers -/

/-- The names of the registers that can be given a value. -/
def registerNames : List String :=
  ["V0", "V1", "V2", "V3", "V4", "V5", "V6", "V7", "V8", "V9", "VA", "VB", "VC", "VD", "VE", "VF",
    "I", "DT", "ST"]

/-- The names that can be given values are those of the general registers, the index register and
the timers. -/
theorem registerNames_eq :
    registerNames = (List.finRange 16).map Instruction.registerName ++ ["I", "DT", "ST"] := by
  decide +kernel

theorem nodup_registerNames :
    ((List.finRange 16).map Instruction.registerName ++ ["I", "DT", "ST"]).Nodup := by
  rw [← registerNames_eq]
  decide

/-- No two registers have a name in common. -/
theorem registerName_inj {x y : Register} :
    Instruction.registerName x = Instruction.registerName y ↔ x = y := by
  constructor
  · exact fun same => List.inj_on_of_nodup_map (List.nodup_append.mp nodup_registerNames).1
      (List.mem_finRange x) (List.mem_finRange y) same
  · exact congrArg Instruction.registerName

/-- A general register is called otherwise than the others. -/
theorem registerName_ne (x : Register) : Instruction.registerName x ≠ "I" ∧
    Instruction.registerName x ≠ "DT" ∧ Instruction.registerName x ≠ "ST" := by
  have apart := (List.nodup_append.mp nodup_registerNames).2.2 _
    (List.mem_map_of_mem (List.mem_finRange x))
  exact ⟨apart "I" (by decide), apart "DT" (by decide), apart "ST" (by decide)⟩

theorem mem_registerNames_iff {name : String} :
    name ∈ registerNames ↔
      (∃ x, Instruction.registerName x = name) ∨ name = "I" ∨ name = "DT" ∨ name = "ST" := by
  rw [registerNames_eq]
  simp

theorem generalRegister?_registerName (x : Register) :
    generalRegister? (Instruction.registerName x) = some x := by
  cases found : generalRegister? (Instruction.registerName x) with
  | some y => rw [registerName_inj.mp (registerName_of_generalRegister? found)]
  | none => simpa using List.find?_eq_none.mp found x (List.mem_finRange x)

/-- The registers that can be set are those with a name. -/
theorem exists_writeRegister_iff {c : Cpu} {name : String} {value : Int} :
    (∃ c', writeRegister c name value = .ok c') ↔ name ∈ registerNames := by
  rw [mem_registerNames_iff]
  constructor
  · rintro ⟨c', written⟩
    rcases writeRegister_cases written with ⟨x, rfl, _⟩ | ⟨rfl, _⟩ | ⟨rfl, _⟩ | ⟨rfl, _⟩ <;> simp
  · rintro (⟨x, rfl⟩ | other)
    · exact ⟨_, by rw [writeRegister, generalRegister?_registerName]⟩
    · cases found : generalRegister? name with
      | some x => exact ⟨_, by rw [writeRegister, found]⟩
      | none =>
          simp only [writeRegister, found]
          rcases other with rfl | rfl | rfl <;> simp

/-- Values can be given to registers exactly if each name belongs to one. -/
theorem exists_writeRegisters_iff {c : Cpu} {registers : List (String × Int)} :
    (∃ c', writeRegisters c registers = .ok c') ↔ ∀ entry ∈ registers, entry.1 ∈ registerNames := by
  induction registers generalizing c with
  | nil => simp [writeRegisters]
  | cons entry registers ih =>
      obtain ⟨name, value⟩ := entry
      simp only [writeRegisters, bind_eq_ok_iff, List.forall_mem_cons]
      constructor
      · rintro ⟨c', next, first, later⟩
        exact ⟨exists_writeRegister_iff.mp ⟨next, first⟩, ih.mp ⟨c', later⟩⟩
      · rintro ⟨known, rest⟩
        obtain ⟨next, first⟩ := exists_writeRegister_iff.mpr known
        obtain ⟨c', later⟩ := ih.mpr rest
        exact ⟨c', next, first, later⟩

/-! ### Registers that are set -/

/-- Registers became others by being given values by name, each reduced to the width of its
register; those without a value, and everything else, stayed as they were. -/
structure Assigned (before : Cpu) (given : String → Option Int) (after : Cpu) : Prop where
  reg : ∀ x, after.reg x = ((given (Instruction.registerName x)).map (· % 256)).getD (before.reg x)
  index : after.i = ((given "I").map (· % 65536)).getD before.i
  delay : after.delay = ((given "DT").map (· % 256)).getD before.delay
  sound : after.sound = ((given "ST").map (· % 256)).getD before.sound
  pc : after.pc = before.pc
  sp : after.sp = before.sp
  halted : after.halted = before.halted
  stack : after.stack = before.stack
  word : after.word = before.word

variable {c c' c'' : Cpu} {f g : String → Option Int}

theorem assigned_none (c : Cpu) : Assigned c (fun _ => none) c :=
  ⟨fun _ => rfl, rfl, rfl, rfl, rfl, rfl, rfl, rfl, rfl⟩

/-- Values that are given later count. -/
theorem Assigned.trans (h : Assigned c f c') (h' : Assigned c' g c'') :
    Assigned c (fun name => (g name).or (f name)) c'' where
  reg x := by
    rw [h'.reg, h.reg]
    cases g (Instruction.registerName x) <;> rfl
  index := by
    rw [h'.index, h.index]
    cases g "I" <;> rfl
  delay := by
    rw [h'.delay, h.delay]
    cases g "DT" <;> rfl
  sound := by
    rw [h'.sound, h.sound]
    cases g "ST" <;> rfl
  pc := h'.pc.trans h.pc
  sp := h'.sp.trans h.sp
  halted := h'.halted.trans h.halted
  stack := h'.stack.trans h.stack
  word := h'.word.trans h.word

/-- The values determine what becomes of the registers. -/
theorem Assigned.unique (h : Assigned c f c') (h' : Assigned c f c'') : c' = c'' := by
  have general : c'.v = c''.v := by
    ext k inside
    exact (h.reg ⟨k, inside⟩).trans (h'.reg ⟨k, inside⟩).symm
  cases c'
  cases c''
  rw [Cpu.mk.injEq]
  exact ⟨h.pc.trans h'.pc.symm, h.sp.trans h'.sp.symm, h.halted.trans h'.halted.symm, general,
    h.index.trans h'.index.symm, h.delay.trans h'.delay.symm, h.sound.trans h'.sound.symm,
    h.stack.trans h'.stack.symm, h.word.trans h'.word.symm⟩

/-- Writing a register assigns the value to it and to no other. -/
theorem assigned_writeRegister {name : String} {value : Int}
    (h : writeRegister c name value = .ok c') :
    Assigned c ([(name, value)].lookup ·) c' := by
  rcases writeRegister_cases h with ⟨x, rfl, rfl⟩ | ⟨rfl, rfl⟩ | ⟨rfl, rfl⟩ | ⟨rfl, rfl⟩
  case inl =>
    obtain ⟨index, delay, sound⟩ := registerName_ne x
    constructor
    case reg =>
      intro y
      rw [Cpu.reg_setReg]
      by_cases same : y = x <;> simp [same, registerName_inj, lookup_single]
    all_goals simp [Cpu.setReg, lookup_single, Ne.symm index, Ne.symm delay, Ne.symm sound]
  all_goals
    constructor
    case reg =>
      intro y
      simp [registerName_ne y, Cpu.reg, lookup_single]
    all_goals simp [lookup_single]

/-- Each register has the last value that is given under its name. -/
theorem assigned_writeRegisters {c c' : Cpu} {registers : List (String × Int)}
    (h : writeRegisters c registers = .ok c') : Assigned c (registers.reverse.lookup ·) c' := by
  induction registers generalizing c with
  | nil =>
      cases h
      exact assigned_none _
  | cons entry registers ih =>
      obtain ⟨name, value⟩ := entry
      obtain ⟨next, first, later⟩ := bind_eq_ok_iff.mp h
      have both := (assigned_writeRegister first).trans (ih later)
      simpa only [List.reverse_cons, List.lookup_append] using both

section Distinct

variable {registers : List (String × Int)} (distinct : (registers.map Prod.fst).Nodup)
include distinct

/-- Where no name has two entries, each register has the value that is given under its name. -/
theorem assigned_of_distinct (h : writeRegisters c registers = .ok c') :
    Assigned c (registers.lookup ·) c' := by
  have assigned := assigned_writeRegisters h
  simp only [lookup_eq_of_perm distinct (List.reverse_perm registers)] at assigned
  exact assigned

/-- Where no name has two entries, their order does not matter. -/
theorem writeRegisters_of_perm {registers' : List (String × Int)}
    (same : registers'.Perm registers) (h : writeRegisters c registers = .ok c') :
    writeRegisters c registers' = .ok c' := by
  have known : ∀ entry ∈ registers', entry.1 ∈ registerNames := fun entry mem =>
    exists_writeRegisters_iff.mp ⟨c', h⟩ entry (same.mem_iff.mp mem)
  obtain ⟨other, written⟩ := exists_writeRegisters_iff.mpr known
  have distinct' : (registers'.map Prod.fst).Nodup :=
    (same.map Prod.fst).nodup_iff.mpr distinct
  have assigned := assigned_of_distinct distinct' written
  simp only [lookup_eq_of_perm distinct same] at assigned
  rw [written, assigned.unique (assigned_of_distinct distinct h)]

end Distinct

/-! ### The machine at its start -/

/-- The value that a configuration gives a register by its name; 0 if it gives none. -/
def given (config : Config) (name : String) : Int := (config.registers.lookup name).getD 0

/-- What it takes for a configuration to be built: the font lies inside memory, the screen has
pixels, and values are given to registers that exist. -/
structure Buildable (config : Config) : Prop where
  font_nonneg : 0 ≤ config.fontAddress
  font_le : config.fontAddress + 80 ≤ config.memorySize
  width_pos : 0 < config.displayWidth
  height_pos : 0 < config.displayHeight
  known : ∀ entry ∈ config.registers, entry.1 ∈ registerNames

/-- A machine is at the start that a configuration describes. -/
structure Starts (config : Config) (m : Machine) : Prop where
  pc : m.cpu.pc = match config.pc? with
    | some pc => pc % 65536
    | none => config.programStart
  reg : ∀ x, m.cpu.reg x = config.given (Instruction.registerName x) % 256
  index : m.cpu.i = config.given "I" % 65536
  delay : m.cpu.delay = config.given "DT" % 256
  sound : m.cpu.sound = config.given "ST" % 256
  sp : m.cpu.sp = 0
  stack : ∀ k, m.cpu.stack.get k = 0
  word : m.cpu.word = 0
  running : m.cpu.halted = false
  cycles : m.cycles = 0
  maps : ∀ a, m.bus.Maps a ↔ 0 ≤ a ∧ a < config.memorySize
  font : m.bus.Holds config.fontAddress Font.bytes
  zero : ∀ a, 0 ≤ a → a < config.memorySize →
    a < config.fontAddress ∨ config.fontAddress + 80 ≤ a → m.bus.peek? a = .ok 0
  log : m.bus.log = #[]
  width : m.display.width = config.displayWidth
  height : m.display.height = config.displayHeight
  dark : ∀ cell ∈ m.display.cells, cell = 0

/-- The registers are set on those after a reset, with the program counter that is asked for. -/
theorem initialCpu_eq (config : Config) :
    config.initialCpu = writeRegisters (Cpu.initial (match config.pc? with
      | some pc => pc % 65536
      | none => config.programStart)) config.registers := by
  unfold initialCpu
  cases config.pc? <;> rfl

/-- The registers can start as configured exactly if each name belongs to one. -/
theorem exists_initialCpu_iff :
    (∃ c, config.initialCpu = .ok c) ↔ ∀ entry ∈ config.registers, entry.1 ∈ registerNames := by
  simp only [initialCpu_eq, exists_writeRegisters_iff]

/-- With the font in memory, its addresses show its bytes and all others zero. -/
theorem memory_of_build [Host] (built : config.build seed = .ok m) :
    m.bus.Holds config.fontAddress Font.bytes ∧ m.bus.log = #[] ∧
      ∀ a, 0 ≤ a → a < config.memorySize →
        a < config.fontAddress ∨ config.fontAddress + 80 ≤ a → m.bus.peek? a = .ok 0 := by
  obtain ⟨memory, display, cpu, low, high, created, _, _, rfl⟩ := build_eq_ok_iff.mp built
  have size := (Ram.size_of_create? created).1
  have rams := Bus.ofRams_single memory
  have distinct : (Bus.single memory).Distinct := List.nodup_singleton _
  have mapped : ∀ k < Font.bytes.length, (Bus.single memory).Maps (config.fontAddress + k) :=
    fun k inside => Bus.maps_single.mpr ⟨by omega, by omega⟩
  have loaded := Bus.load_font_of_maps rams.backed mapped
  rw [← Bus.length_values] at mapped
  have stores := Bus.stores_storeFrom rams.backed distinct.separate
    (Bus.byte_of_mem_values Font.bytes) mapped
  have held := stores.holds
  rw [Bus.map_ofNat_values] at held
  simp only [Machine.create, loaded]
  -- Only the log is dropped; the stores themselves need not be carried out to see that.
  generalize (Bus.single memory).storeFrom config.fontAddress (Bus.values Font.bytes) = stored at *
  refine ⟨held, rfl, ?_⟩
  intro a nonneg inside outside
  refine (stores.others a outside).trans ?_
  exact Bus.peek?_single_of_fresh (Ram.fresh_of_create? created)
    (Bus.maps_single.mpr ⟨nonneg, by omega⟩)

theorem starts_of_build [Host] (distinct : (config.registers.map Prod.fst).Nodup)
    (built : config.build seed = .ok m) : config.Starts m := by
  obtain ⟨font, log, zero⟩ := memory_of_build built
  have maps : ∀ a, m.bus.Maps a ↔ 0 ≤ a ∧ a < config.memorySize := fun _ => maps_of_build built
  obtain ⟨memory, display, cpu, _, _, _, screen, initial, rfl⟩ := build_eq_ok_iff.mp built
  rw [initialCpu_eq] at initial
  -- The registers hold what they are assigned, reduced to their widths, and zero otherwise.
  have assigned := assigned_of_distinct distinct initial
  obtain ⟨_, width, height, _, dark⟩ := Display.dark_of_create? screen
  have given (name : String) (span : Int) :
      ((config.registers.lookup name).map (· % span)).getD 0 = config.given name % span := by
    rw [Config.given]
    cases config.registers.lookup name <;> simp
  exact {
    pc := assigned.pc
    reg x := by
      have set := assigned.reg x
      rw [Cpu.reg_initial, given] at set
      exact set
    index := assigned.index.trans (given "I" 65536)
    delay := assigned.delay.trans (given "DT" 256)
    sound := assigned.sound.trans (given "ST" 256)
    sp := assigned.sp
    stack k := by
      rw [assigned.stack, Cpu.stack_initial]
    word := assigned.word
    running := assigned.halted
    cycles := rfl
    maps, font, zero, log, width, height, dark }

/-- A configuration for whose parts there is room is built exactly if its font lies inside memory,
its screen has pixels and it names registers that exist; any other is refused as a bad value. What
is built starts as the configuration says, whatever the order in which it names the registers. -/
theorem build_starts_as_configured [Host] (room : config.HasRoom)
    (distinct : (config.registers.map Prod.fst).Nodup) (seed : Int) :
    ((∃ m, config.build seed = .ok m) ↔ config.Buildable) ∧
      (∀ e, config.build seed = .error e → e.kind = .badValue) ∧
      (∀ m, config.build seed = .ok m → config.Starts m) ∧
      (∀ m registers, config.build seed = .ok m → registers.Perm config.registers →
        { config with registers := registers }.build seed = .ok m) := by
  refine ⟨⟨?_, ?_⟩, fun e => kind_of_build room, fun m => starts_of_build distinct, ?_⟩
  · rintro ⟨m, built⟩
    obtain ⟨memory, display, cpu, low, high, _, screen, initial, _⟩ := build_eq_ok_iff.mp built
    obtain ⟨⟨width, height⟩, _⟩ := Display.dark_of_create? screen
    exact ⟨low, high, width, height, exists_initialCpu_iff.mp ⟨cpu, initial⟩⟩
  · rintro ⟨low, high, width, height, known⟩
    obtain ⟨cpu, initial⟩ := exists_initialCpu_iff.mpr known
    exact exists_build seed low high room ⟨width, height⟩ initial
  · intro m registers built same
    obtain ⟨memory, display, cpu, low, high, created, screen, initial, parts⟩ :=
      build_eq_ok_iff.mp built
    refine build_eq_ok_iff.mpr ⟨memory, display, cpu, low, high, created, screen, ?_, parts⟩
    rw [initialCpu_eq] at initial ⊢
    exact writeRegisters_of_perm distinct same initial

/-- A configuration with oversized and negative values for some registers. -/
def oversized : Config :=
  { default with pc? := some (-1), registers := [("VA", 0x1FF), ("I", -1), ("DT", 300)] }

/-- Oversized values are reduced to the widths of their registers, in either order. -/
theorem oversized_values_reduced :
    oversized.HasRoom ∧ (oversized.registers.map Prod.fst).Nodup ∧
      ∃ m, oversized.build 0 = .ok m ∧ m.cpu.pc = 65535 ∧ m.cpu.reg 10 = 255 ∧ m.cpu.reg 3 = 0 ∧
        m.cpu.i = 65535 ∧ m.cpu.delay = 44 ∧
        { oversized with registers := oversized.registers.reverse }.build 0 = .ok m := by
  have room : oversized.HasRoom := by decide
  have distinct : (oversized.registers.map Prod.fst).Nodup := by decide
  obtain ⟨accepted, _, starts, ordered⟩ := build_starts_as_configured room distinct 0
  obtain ⟨m, built⟩ := accepted.mpr (by constructor <;> decide)
  have start := starts m built
  have ten : oversized.given (Instruction.registerName 10) = 0x1FF := by decide +kernel
  have three : oversized.given (Instruction.registerName 3) = 0 := by decide +kernel
  refine ⟨room, distinct, m, built, start.pc, ?_, ?_, start.index, start.delay, ?_⟩
  · rw [start.reg, ten]
    rfl
  · rw [start.reg, three]
    rfl
  · exact ordered m _ built (List.reverse_perm _)

end Config

end Chip8
