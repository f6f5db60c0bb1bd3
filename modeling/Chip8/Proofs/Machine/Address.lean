import Chip8.Proofs.Machine.Action
import Chip8.Proofs.Machine.Failure

/-!
When the program counter and the index register are machine words.

Every instruction masks the addresses that it computes, but two values are taken as they are: the
program start, which a reset loads, and the font address, on which glyph addresses are built. Where
programs start at a machine word and so does every glyph, no action leaves the range
(`Addressed.perform`). A program of two instructions makes the index register point at the last
glyph (`exists_run_to_last_glyph`).
-/

namespace Chip8.Machine

/-! ### Staying in range -/

/-- A well-formed machine whose program counter and index register are machine words, and whose
programs and glyphs start at machine words. -/
structure Addressed (m : Machine) : Prop extends m.WellFormed where
  start : IsWord m.programStart
  font_nonneg : 0 ≤ m.fontAddress
  font_le : m.fontAddress + 75 ≤ 65535
  pc : IsWord m.cpu.pc
  i : IsWord m.cpu.i

variable {m : Machine}

/-- A step leaves the program counter and the index register in 16 bits. -/
theorem Addressed.step (h : m.Addressed) :
    IsWord (Machine.step m).2.cpu.pc ∧ IsWord (Machine.step m).2.cpu.i := by
  obtain ⟨halted, cycles, log, still | ⟨w, word, moved⟩⟩ := step_effect m
  · rw [still]
    exact ⟨h.pc, h.i⟩
  · have backed : (m.dropLog.fetched w).bus.Backed := h.backed
    have bounded := bounded_fetched h.bounded (Bus.isWord_of_wordAt? word)
    have pc := isWord_pc_fetched m w
    rw [moved]
    unfold Operation.execute
    cases (Operation.ofWord w).instruction? with
    | none => exact ⟨pc, h.i⟩
    | some i =>
        exact ⟨i.isWord_pc_execute backed bounded pc,
          i.isWord_i_execute backed bounded.toRegular h.i h.font_nonneg h.font_le⟩

/-- No action takes the program counter or the index register out of range. -/
theorem Addressed.perform (h : m.Addressed) (a : Action) : (m.perform a).Addressed := by
  have wiring := wiring_perform m a
  have font : (m.perform a).fontAddress = m.fontAddress := congrArg (·.1) wiring
  have start : (m.perform a).programStart = m.programStart := congrArg (·.2.1) wiring
  have words : IsWord (m.perform a).cpu.pc ∧ IsWord (m.perform a).cpu.i := by
    cases a with
    | step => exact h.step
    | reset => exact ⟨h.start, isWord_emod 0⟩
    | press _ | release _ | releaseAll =>
        obtain ⟨keypad, changed⟩ := onKeypad_snd _ m
        rw [Machine.perform, changed]
        exact ⟨h.pc, h.i⟩
    | _ => exact ⟨h.pc, h.i⟩
  exact {
    h.toWellFormed.perform a with
    start := start ▸ h.start
    font_nonneg := font ▸ h.font_nonneg
    font_le := font ▸ h.font_le
    pc := words.1
    i := words.2 }

theorem Addressed.performAll (h : m.Addressed) (actions : List Action) :
    (m.performAll actions).Addressed :=
  performAll_induction (fun _ a h => h.perform a) h actions

/-! ### Leaving the range -/

/-- The actions that write a word at an address. -/
def writing (a w : Int) : List Action := [.write a (w / 256), .write (a + 1) (w % 256)]

theorem perform_write (hb : m.bus.Backed) {a v : Int} (mapped : m.bus.Maps a) (hv : IsByte v) :
    m.perform (.write a v) = { m with bus := (m.bus.store a v).note [⟨.write, a, v⟩] } := by
  rw [perform, onBus_apply, Bus.write_of_maps hb mapped hv]

section Writing

variable {a w : Int} {l l' : Location}

/-- Writing a word leaves nothing but its two bytes and their accesses in the log. -/
theorem performAll_writing (hb : m.bus.Backed) (first : m.bus.Maps a) (second : m.bus.Maps (a + 1))
    (hw : IsWord w) :
    m.performAll (writing a w) =
      { m with bus := (((m.bus.store a (w / 256)).note [⟨.write, a, w / 256⟩]).store (a + 1)
        (w % 256)).note [⟨.write, a + 1, w % 256⟩] } := by
  obtain ⟨low, high⟩ := hw
  have upper : IsByte (w / 256) := by
    constructor <;> omega
  have hb' : ((m.bus.store a (w / 256)).note [⟨.write, a, w / 256⟩]).Backed := hb.store a _
  have second' : ((m.bus.store a (w / 256)).note [⟨.write, a, w / 256⟩]).Maps (a + 1) := by
    simpa using second
  rw [writing, performAll_cons, perform_write hb first upper, performAll_cons, performAll_nil,
    perform_write hb' second' (isByte_emod w)]

/-- A word written at two addresses that share no location is the word found there. -/
theorem wordAt?_writing (hb : m.bus.Backed) (first : m.bus.location? a = some l)
    (second : m.bus.location? (a + 1) = some l') (apart : l ≠ l') (hw : IsWord w) :
    (m.performAll (writing a w)).bus.wordAt? a = .ok w := by
  rw [performAll_writing hb (Bus.maps_iff.mpr ⟨l, first⟩) (Bus.maps_iff.mpr ⟨l', second⟩) hw]
  obtain ⟨low, high⟩ := hw
  have hb' : (m.bus.store a (w / 256)).Backed := hb.store a _
  have upper : ((m.bus.store a (w / 256)).store (a + 1) (w % 256)).peek? a =
      .ok (UInt8.ofNat (w / 256).toNat) := by
    rw [Bus.peek?_store hb' (by simpa using second), Bus.location?_store, first,
      if_neg (by simpa using apart), Bus.peek?_store hb first, if_pos first]
  have lower : ((m.bus.store a (w / 256)).store (a + 1) (w % 256)).peek? (a + 1) =
      .ok (UInt8.ofNat (w % 256).toNat) := by
    rw [Bus.peek?_store hb' (by simpa using second), Bus.location?_store, if_pos second]
  have word := Bus.wordAt?_of_bytes upper lower
  have value : ((UInt8.ofNat (w / 256).toNat).toNat : Int) * 256 +
      (UInt8.ofNat (w % 256).toNat).toNat = w := by
    simp only [UInt8.toNat_ofNat']
    omega
  rw [value] at word
  simpa [Bus.store_note] using word

end Writing

/-- The actions that write a word at an address and make a step. -/
def executing (a w : Int) : List Action := writing a w ++ [.step]

/-- A running machine fetches a word that was written at its program counter. -/
theorem fetches_writing (hb : m.bus.Backed) (running : m.cpu.halted = false) {l l' : Location}
    (first : m.bus.location? m.cpu.pc = some l) (second : m.bus.location? (m.cpu.pc + 1) = some l')
    (apart : l ≠ l') {w : Int} (hw : IsWord w) :
    (m.performAll (writing m.cpu.pc w)).Fetches w := by
  have word := wordAt?_writing hb first second apart hw
  have cpu : (m.performAll (writing m.cpu.pc w)).cpu = m.cpu := by
    rw [performAll_writing hb (Bus.maps_iff.mpr ⟨l, first⟩) (Bus.maps_iff.mpr ⟨l', second⟩) hw]
  exact ⟨cpu.symm ▸ running, cpu.symm ▸ word⟩

/-- A running machine executes a word that is written at its program counter. -/
theorem cpu_executing (h : m.WellFormed) (running : m.cpu.halted = false) {l l' : Location}
    (first : m.bus.location? m.cpu.pc = some l) (second : m.bus.location? (m.cpu.pc + 1) = some l')
    (apart : l ≠ l') {w : Int} (hw : IsWord w) {i : Instruction}
    (decoded : Instruction.decode? w = some i) (safe : ∀ m, i.fault? m = none) :
    ∃ m', m'.cpu = { m.cpu with word := w, pc := (m.cpu.pc + 2) % 65536 } ∧
      m'.fontAddress = m.fontAddress ∧
      (m.performAll (executing m.cpu.pc w)).cpu = (i.execute m').2.cpu := by
  have written := performAll_writing h.backed (Bus.maps_iff.mpr ⟨l, first⟩)
    (Bus.maps_iff.mpr ⟨l', second⟩) hw
  have after := h.performAll (writing m.cpu.pc w)
  have fetches := fetches_writing h.backed running first second apart hw
  have stepped := step_of_safe after.backed after.bounded.toRegular fetches.running fetches.word
    decoded (safe _)
  refine ⟨(m.performAll (writing m.cpu.pc w)).dropLog.fetched w, ?_, ?_, ?_⟩
  · rw [written]
    rfl
  · rw [written]
    rfl
  · rw [executing, performAll_append]
    exact congrArg (fun outcome => outcome.2.cpu) stepped

theorem isRoutine_of_mem_executing {a w : Int} {action : Action} (h : action ∈ executing a w) :
    action.isRoutine = true := by
  simp only [executing, writing, List.mem_append, List.mem_cons, List.not_mem_nil, or_false] at h
  rcases h with (rfl | rfl) | rfl <;> rfl

/-- The addresses that a machine word can hold, and the next, lead to one cell each. -/
def SpansWords (m : Machine) : Prop :=
  ∀ a, 0 ≤ a → a ≤ 65536 → m.bus.location? a = some ⟨0, a⟩

/-- What addresses lead to does not change, so they go on leading there. -/
theorem SpansWords.performAll (spans : m.SpansWords) (actions : List Action) :
    (m.performAll actions).SpansWords := by
  have regions : (m.performAll actions).bus.regions = m.bus.regions :=
    congrArg (·.2.2.1) (wiring_performAll m actions)
  intro a low high
  rw [Bus.location?_congr regions]
  exact spans a low high

/-- A running machine that can execute any word where its program counter points. -/
structure Ready (m : Machine) : Prop extends m.WellFormed where
  spans : m.SpansWords
  running : m.cpu.halted = false
  pc : IsWord m.cpu.pc

section Ready

variable {w : Int} {i : Instruction}

theorem Ready.cpu_executing (h : m.Ready) (hw : IsWord w) (decoded : Instruction.decode? w = some i)
    (safe : ∀ m, i.fault? m = none) :
    ∃ m', m'.cpu = { m.cpu with word := w, pc := (m.cpu.pc + 2) % 65536 } ∧
      m'.fontAddress = m.fontAddress ∧
      (m.performAll (executing m.cpu.pc w)).cpu = (i.execute m').2.cpu := by
  obtain ⟨low, high⟩ := h.pc
  apply Machine.cpu_executing h.toWellFormed h.running (h.spans _ low (by omega))
    (h.spans _ (by omega) (by omega)) _ hw decoded safe
  intro same
  have := congrArg Location.offset same
  simp only at this
  omega

/-- An instruction that neither jumps nor halts leaves the machine ready for the next. -/
theorem Ready.performAll_executing (h : m.Ready) (hw : IsWord w)
    (decoded : Instruction.decode? w = some i) (safe : ∀ m, i.fault? m = none)
    (steady : ∀ m, (i.execute m).2.cpu.pc = m.cpu.pc ∧
      (i.execute m).2.cpu.halted = m.cpu.halted) :
    (m.performAll (executing m.cpu.pc w)).Ready := by
  obtain ⟨m', before, _, after⟩ := h.cpu_executing hw decoded safe
  exact {
    h.toWellFormed.performAll (executing m.cpu.pc w) with
    spans := h.spans.performAll _
    running := by
      rw [after, (steady m').2, before]
      exact h.running
    pc := by
      rw [after, (steady m').1, before]
      exact isWord_emod _ }

end Ready

/-- The word 6F0F loads 15 into the last register. -/
theorem Ready.load_fifteen (h : m.Ready) :
    (m.performAll (executing m.cpu.pc 0x6F0F)).Ready ∧
      (m.performAll (executing m.cpu.pc 0x6F0F)).cpu.reg 15 = 15 := by
  have decoded : Instruction.decode? 0x6F0F = some (.loadByte 15 15) := rfl
  refine ⟨h.performAll_executing (by decide) decoded (fun _ => rfl) fun _ => ⟨rfl, rfl⟩, ?_⟩
  obtain ⟨m', _, _, after⟩ := h.cpu_executing (by decide) decoded fun _ => rfl
  rw [after]
  exact (Cpu.reg_setReg m'.cpu 15 15 15).trans (if_pos rfl)

/-- The word FF29 loads the address of the last glyph if the last register holds 15. -/
theorem Ready.load_last_glyph (h : m.Ready) (fifteen : m.cpu.reg 15 = 15) :
    (m.performAll (executing m.cpu.pc 0xFF29)).cpu.i = m.fontAddress + 75 := by
  have decoded : Instruction.decode? 0xFF29 = some (.loadGlyph 15) := rfl
  obtain ⟨m', before, font, after⟩ := h.cpu_executing (by decide) decoded fun _ => rfl
  have value : m'.cpu.reg 15 = 15 := by
    rw [before]
    exact fifteen
  calc (m.performAll (executing m.cpu.pc 0xFF29)).cpu.i
      = ((Instruction.loadGlyph 15).execute m').2.cpu.i := by rw [after]
    _ = Font.glyphAddress m'.fontAddress (m'.cpu.reg 15) := rfl
    _ = m.fontAddress + 75 := by
      rw [font, value]
      rfl

/-- Two instructions take the index register to the last glyph. -/
theorem exists_run_to_last_glyph (h : m.Ready) :
    ∃ actions : List Action, (∀ a ∈ actions, a.isRoutine) ∧
      (m.performAll actions).cpu.i = m.fontAddress + 75 := by
  obtain ⟨next, fifteen⟩ := h.load_fifteen
  have font : (m.performAll (executing m.cpu.pc 0x6F0F)).fontAddress = m.fontAddress :=
    congrArg (·.1) (wiring_performAll m (executing m.cpu.pc 0x6F0F))
  have last := next.load_last_glyph fifteen
  refine ⟨executing m.cpu.pc 0x6F0F ++
    executing (m.performAll (executing m.cpu.pc 0x6F0F)).cpu.pc 0xFF29, ?_, ?_⟩
  · intro a mem
    rcases List.mem_append.mp mem with here | there
    · exact isRoutine_of_mem_executing here
    · exact isRoutine_of_mem_executing there
  · rw [performAll_append, last, font]

end Chip8.Machine
