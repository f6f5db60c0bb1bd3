import Chip8.Proofs.Machine.Block
import Chip8.Proofs.Machine.Failure

/-!
What a failing step leaves behind (`failing_step_leaves_prefix`).

A step that cannot fetch changes nothing but the log. One that fetched an instruction which goes
through memory stops at the first address that no region covers, and what it leaves is what it did
at the addresses before it: `CutShort` says so for each instruction that can fail. The log shows the
same accesses as the state.
-/

namespace Chip8

namespace Machine

variable {m m' : Machine} {w : Int}

/-- What no failing step changes; and the processor is halted. -/
structure Stopped (m m' : Machine) : Prop where
  halted : m'.cpu.halted = true
  cycles : m'.cycles = m.cycles
  i : m'.cpu.i = m.cpu.i
  sp : m'.cpu.sp = m.cpu.sp
  stack : m'.cpu.stack = m.cpu.stack
  delay : m'.cpu.delay = m.cpu.delay
  sound : m'.cpu.sound = m.cpu.sound
  keypad : m'.keypad = m.keypad
  random : m'.random = m.random

/-- `k` is the number of mapped addresses from the index register on before the first that is not
mapped. -/
def Reaches (m : Machine) (k : Nat) : Prop :=
  (∀ j < k, m.bus.Maps (m.cpu.i + j)) ∧ ¬ m.bus.Maps (m.cpu.i + k)

/-- What a failing step leaves: values stored from the index register on, bytes loaded into the
registers from V0 on, a display, and in the log some accesses after the reads of the fetch. -/
structure Leaves (m : Machine) (values : List Int) (bytes : List UInt8) (display : Display)
    (accesses : List Access) (m' : Machine) : Prop where
  memory : m.bus.Stores m.cpu.i values m'.bus
  loaded : ∀ (r : Register) (byte : UInt8), bytes[r.val]? = some byte → m'.cpu.reg r = byte.toNat
  others : ∀ r : Register, bytes.length ≤ r.val → m'.cpu.reg r = m.cpu.reg r
  display : m'.display = display
  log : m'.bus.log = (m.bus.wordReads m.cpu.pc ++ accesses).toArray

/-- What a step leaves of the instruction that it fetched and that failed: nothing of a call or a
return, and of an instruction that goes through memory what it did at the mapped addresses before
the first that is not mapped. -/
inductive CutShort (m : Machine) : Instruction → Machine → Prop where
  | ret {m' : Machine} : m.Leaves [] [] m.display [] m' → CutShort m .ret m'
  | call {t : Target} {m' : Machine} : m.Leaves [] [] m.display [] m' → CutShort m (.call t) m'
  | storeDecimal {x : Register} {k : Nat} {m' : Machine} : k < 3 → m.Reaches k →
      m.Leaves ((decimalDigits (m.cpu.reg x)).take k) [] m.display
        (Bus.writes m.cpu.i ((decimalDigits (m.cpu.reg x)).take k)) m' →
      CutShort m (.storeDecimal x) m'
  | storeRegisters {x : Register} {k : Nat} {m' : Machine} : k ≤ x.val → m.Reaches k →
      m.Leaves (m.cpu.v.toList.take k) [] m.display
        (Bus.writes m.cpu.i (m.cpu.v.toList.take k)) m' →
      CutShort m (.storeRegisters x) m'
  | loadRegisters {x : Register} {bytes : List UInt8} {m' : Machine} : bytes.length ≤ x.val →
      m.Reaches bytes.length → m.bus.Holds m.cpu.i bytes →
      m.Leaves [] bytes m.display (Bus.reads m.cpu.i bytes) m' →
      CutShort m (.loadRegisters x) m'
  | draw {x y : Register} {rows : Fin 16} {bytes : List UInt8} {drawn m' : Machine} :
      bytes.length < rows.val → m.Reaches bytes.length → m.bus.Holds m.cpu.i bytes →
      drawSprite x y bytes.length m = (.ok (), drawn) →
      m.Leaves [] [] drawn.display (Bus.reads m.cpu.i bytes) m' →
      CutShort m (.draw x y rows) m'

end Machine

/-! ### What every failing step leaves -/

/-- An instruction that fails changes no registers but the general ones. -/
theorem Instruction.cpu_leftover (m : Machine) (i : Instruction) :
    (i.leftover m).cpu = { m.cpu with v := (i.leftover m).cpu.v } := by
  cases i with
  | loadRegisters x => exact Cpu.loadFrom_eq _ _ _
  | _ => rfl

namespace Machine

variable {m m' : Machine} {w : Int}

/-- An instruction that fails leaves everything but memory, the general registers and the display as
it was. -/
theorem stopped_leftover (m : Machine) (w : Int) (i : Instruction) :
    m.Stopped (i.leftover (m.dropLog.fetched w)).halt := by
  have cpu := Instruction.cpu_leftover (m.dropLog.fetched w) i
  have index := congrArg Cpu.i cpu
  have pointer := congrArg Cpu.sp cpu
  have slots := congrArg Cpu.stack cpu
  have timer := congrArg Cpu.delay cpu
  have tone := congrArg Cpu.sound cpu
  refine ⟨rfl, ?_, index, pointer, slots, timer, tone, ?_, ?_⟩
  · cases i <;> rfl
  · cases i <;> rfl
  · cases i <;> rfl

/-- The log of a machine that fetched a word shows the reads of the fetch first. -/
theorem log_note_fetched (word : m.bus.wordAt? m.cpu.pc = .ok w) {b : Bus}
    (same : b.log = (m.dropLog.fetched w).bus.log) (accesses : List Access) :
    (b.note accesses).log = (m.bus.wordReads m.cpu.pc ++ accesses).toArray := by
  rw [Bus.wordReads_of_wordAt? word]
  simp [Bus.note, same, fetched, dropLog, Bus.dropLog]

/-- A fetch and further reads change no byte. -/
theorem stores_nil_fetched (m : Machine) (w : Int) (accesses : List Access) :
    m.bus.Stores m.cpu.i [] ((m.dropLog.fetched w).bus.note accesses) := by
  have same (a : Int) : ((m.dropLog.fetched w).bus.note accesses).peek? a = m.bus.peek? a :=
    Bus.peek?_congr (regions_fetched m w) (devices_fetched m w) a
  exact Bus.stores_nil same m.cpu.i

/-- A step that loads nothing keeps the registers. -/
theorem leaves_of_registers {values : List Int} {display : Display} {accesses : List Access}
    (memory : m.bus.Stores m.cpu.i values m'.bus) (registers : m'.cpu.v = m.cpu.v)
    (shown : m'.display = display)
    (log : m'.bus.log = (m.bus.wordReads m.cpu.pc ++ accesses).toArray) :
    m.Leaves values [] display accesses m' := by
  refine ⟨memory, ?_, ?_, shown, log⟩
  · intro r byte found
    simp at found
  · intro r _
    rw [Cpu.reg, Cpu.reg, registers]

/-- A machine that did nothing with the word that it fetched. -/
theorem leaves_fetched (word : m.bus.wordAt? m.cpu.pc = .ok w) :
    m.Leaves [] [] m.display [] (m.dropLog.fetched w).halt :=
  leaves_of_registers (stores_nil_fetched m w []) rfl rfl (log_note_fetched word rfl [])

/-! ### Instructions that go through memory -/

/-- A transfer that fails reaches the first address that no region covers. -/
theorem reaches_of_fault {n : Nat} {e : Fault}
    (fault : (m.dropLog.fetched w).bus.transferFault? n m.cpu.i = some e) :
    m.bus.reach n m.cpu.i < n ∧ m.Reaches (m.bus.reach n m.cpu.i) := by
  have early : m.bus.reach n m.cpu.i < n := by
    obtain ⟨k, inside, unmapped⟩ := misses_iff.mpr ⟨e, fault⟩
    rcases Nat.lt_or_ge (m.bus.reach n m.cpu.i) n with early | whole
    · exact early
    · exact absurd (Bus.maps_of_lt_reach (Nat.lt_of_lt_of_le inside whole)) unmapped
  exact ⟨early, fun j before => Bus.maps_of_lt_reach before, Bus.not_maps_reach early⟩

/-- Storing leaves the values before the first address that no region covers. -/
theorem leaves_stored (hb : m.bus.Backed) (separate : m.bus.Separate)
    (word : m.bus.wordAt? m.cpu.pc = .ok w) {values : List Int} (bytes : ∀ v ∈ values, IsByte v)
    {k : Nat} (reach : m.bus.reach values.length m.cpu.i = k) :
    m.Leaves (values.take k) [] m.display (Bus.writes m.cpu.i (values.take k))
      { m.dropLog.fetched w with
        bus := ((m.dropLog.fetched w).bus.storeFrom m.cpu.i
          (values.take ((m.dropLog.fetched w).bus.reach values.length m.cpu.i))).note
            (Bus.writes m.cpu.i
              (values.take ((m.dropLog.fetched w).bus.reach values.length m.cpu.i))) }.halt := by
  have same : (m.dropLog.fetched w).bus.reach values.length m.cpu.i = k :=
    (Bus.reach_congr (regions_fetched m w) _ _).trans reach
  have taken : ∀ v ∈ values.take k, IsByte v := fun v mem => bytes v (List.mem_of_mem_take mem)
  have mapped : ∀ j < (values.take k).length, m.bus.Maps (m.cpu.i + j) := by
    intro j inside
    rw [← reach] at inside
    exact Bus.maps_of_lt_length_take inside
  have stores := Bus.stores_storeFrom (b := (m.dropLog.fetched w).bus) hb separate taken mapped
  rw [same]
  apply leaves_of_registers
  · exact { stores with }
  · rfl
  · rfl
  · exact log_note_fetched word (Bus.log_storeFrom _ _ _) _

/-- The bytes that a transfer meets before the first address that no region covers. -/
theorem bytes_of_fault (hb : m.bus.Backed) {n : Nat} {e : Fault}
    (fault : (m.dropLog.fetched w).bus.transferFault? n m.cpu.i = some e) :
    ∃ bytes, (m.dropLog.fetched w).bus.bytesFrom n m.cpu.i = bytes ∧ bytes.length < n ∧
      m.Reaches bytes.length ∧ m.bus.Holds m.cpu.i bytes := by
  obtain ⟨early, reaches⟩ := reaches_of_fault fault
  refine ⟨m.bus.bytesFrom n m.cpu.i, ?_, ?_, ?_, Bus.holds_bytesFrom hb n m.cpu.i⟩
  · exact Bus.bytesFrom_congr (regions_fetched m w) (devices_fetched m w) n m.cpu.i
  · rwa [Bus.length_bytesFrom]
  · rwa [Bus.length_bytesFrom]

/-- Loading leaves the registers that were loaded before it stopped. -/
theorem leaves_loaded (word : m.bus.wordAt? m.cpu.pc = .ok w) {bytes : List UInt8}
    (room : bytes.length ≤ 16) :
    m.Leaves [] bytes m.display (Bus.reads m.cpu.i bytes)
      { m.dropLog.fetched w with
        cpu := (m.dropLog.fetched w).cpu.loadFrom 0 bytes
        bus := (m.dropLog.fetched w).bus.note (Bus.reads m.cpu.i bytes) }.halt where
  memory := stores_nil_fetched m w _
  loaded := by
    intro r byte found
    exact Cpu.reg_loadFrom_of_some _ (by omega) (Nat.zero_add _).symm found
  others := by
    intro r beyond
    exact Cpu.reg_loadFrom_of_outside _ (by omega) (.inr (by omega))
  display := rfl
  log := log_note_fetched word rfl _

/-- Drawing leaves the rows that were drawn before it stopped. -/
theorem leaves_drawn (word : m.bus.wordAt? m.cpu.pc = .ok w) (bytes : List UInt8)
    (display : Display) :
    m.Leaves [] [] display (Bus.reads m.cpu.i bytes)
      { m.dropLog.fetched w with
        bus := (m.dropLog.fetched w).bus.note (Bus.reads m.cpu.i bytes)
        display := display }.halt :=
  leaves_of_registers (stores_nil_fetched m w _) rfl rfl (log_note_fetched word rfl _)

/-- An instruction that fails is cut short. -/
theorem cutShort_leftover (hb : m.bus.Backed) (separate : m.bus.Separate) (hc : m.cpu.Regular)
    (word : m.bus.wordAt? m.cpu.pc = .ok w) {i : Instruction} {e : Fault}
    (fault : i.fault? (m.dropLog.fetched w) = some e) :
    m.CutShort i (i.leftover (m.dropLog.fetched w)).halt := by
  cases i with
  | ret => exact .ret (leaves_fetched word)
  | call t => exact .call (leaves_fetched word)
  | storeDecimal x =>
      obtain ⟨early, reaches⟩ := reaches_of_fault fault
      have bytes := isByte_of_mem_decimalDigits (hc.registers x)
      exact .storeDecimal early reaches (leaves_stored hb separate word bytes rfl)
  | storeRegisters x =>
      obtain ⟨early, reaches⟩ := reaches_of_fault fault
      have bytes := isByte_of_mem_registerBlock hc x
      refine .storeRegisters (Nat.le_of_lt_succ early) reaches ?_
      -- What is stored is cut out of the registers up to `x`, which are cut out of all of them.
      have block : m.cpu.v.toList.take (m.bus.reach (x.val + 1) m.cpu.i) =
          (m.cpu.v.toList.take (x.val + 1)).take (m.bus.reach (x.val + 1) m.cpu.i) := by
        rw [List.take_take, Nat.min_eq_left (Nat.le_of_lt early)]
      rw [block]
      exact leaves_stored hb separate word bytes (by rw [length_registerBlock])
  | loadRegisters x =>
      obtain ⟨_, rfl, early, reaches, holds⟩ := bytes_of_fault hb fault
      have := x.isLt
      exact .loadRegisters (Nat.le_of_lt_succ early) reaches holds (leaves_loaded word (by omega))
  | draw x y rows =>
      obtain ⟨_, rfl, early, reaches, holds⟩ := bytes_of_fault hb fault
      exact .draw early reaches holds (drawSprite_of_holds holds x y) (leaves_drawn word _ _)
  | _ => cases fault

/-! ### Failing steps -/

/-- A step that fails to fetch leaves the reads that it made, and nothing else. -/
theorem leaves_unread (m : Machine) :
    m.Leaves [] [] m.display []
      { m with bus := m.bus.dropLog.note (m.bus.wordReads m.cpu.pc) }.halt := by
  have same (a : Int) : (m.bus.dropLog.note (m.bus.wordReads m.cpu.pc)).peek? a = m.bus.peek? a :=
    rfl
  apply leaves_of_registers
  · exact Bus.stores_nil same m.cpu.i
  · rfl
  · rfl
  · simp [halt, Bus.note, Bus.dropLog]

/-- A machine about to load three registers from the last address of its memory on. -/
def loadingPastEnd : Machine :=
  { ofImage [0xF2, 0x65] (by decide) with
    cpu := { (Cpu.initial 0).setReg (Cpu.register 1) 9 with i := 1 } }

end Machine

end Chip8
