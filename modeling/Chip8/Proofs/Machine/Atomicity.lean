import Chip8.Proofs.Machine.Failure

/-!
When a failing step leaves the machine intact.

A step that fails to fetch, to call or to return changes nothing but its marks. The instructions
that go through memory cell by cell stop at the first address that no region covers and keep what
they did before it, so such a step is atomic exactly if that changed nothing (`step_intact_iff`):
every value that was stored was there already, every register that was loaded held its byte, every
pixel was inverted an even number of times.
-/

namespace Chip8

/-- What an instruction does before the first address that no region covers changes nothing. -/
def Instruction.LeavesNoTrace (m : Machine) (i : Instruction) : Prop :=
  match i with
  | .draw x y rows =>
    ∀ k, (m.display.spriteCells (m.cpu.reg x) (m.cpu.reg y)
      (m.bus.bytesFrom rows.val m.cpu.i)).count k % 2 = 0
  | .storeDecimal _ | .storeRegisters _ =>
    m.bus.Settled m.cpu.i
      ((i.values m.cpu).take (m.bus.reach (i.values m.cpu).length m.cpu.i))
  | .loadRegisters x =>
    ∀ (r : Register) (byte : UInt8), (m.bus.bytesFrom (x.val + 1) m.cpu.i)[r.val]? = some byte →
      m.cpu.reg r = byte.toNat
  | _ => True

namespace Machine

/-- A machine is the same as before but for what a failing step may touch: whether the processor is
halted, its program counter, the last word fetched, and the log. -/
structure Intact (before after : Machine) : Prop where
  devices : after.bus.devices = before.bus.devices
  regions : after.bus.regions = before.bus.regions
  display : after.display = before.display
  v : after.cpu.v = before.cpu.v
  i : after.cpu.i = before.cpu.i
  sp : after.cpu.sp = before.cpu.sp
  stack : after.cpu.stack = before.cpu.stack
  delay : after.cpu.delay = before.cpu.delay
  sound : after.cpu.sound = before.cpu.sound
  cycles : after.cycles = before.cycles
  keypad : after.keypad = before.keypad
  random : after.random = before.random
  fontAddress : after.fontAddress = before.fontAddress
  programStart : after.programStart = before.programStart
  reports : after.reports = before.reports

variable {m : Machine}

/-- Other marks leave a machine intact. -/
theorem intact_fetched (m : Machine) (w : Int) : Intact m (m.dropLog.fetched w).halt := by
  constructor <;> rfl

/-- Storing values leaves the machine intact exactly if they were there already. -/
theorem store_intact_iff (hb : m.bus.Backed) (w : Int) {i : Instruction}
    (stores : i.leftover (m.dropLog.fetched w) =
      { m.dropLog.fetched w with
        bus := ((m.dropLog.fetched w).bus.storeFrom m.cpu.i ((i.values m.cpu).take
          ((m.dropLog.fetched w).bus.reach (i.values m.cpu).length m.cpu.i))).note
          (Bus.writes m.cpu.i ((i.values m.cpu).take
            ((m.dropLog.fetched w).bus.reach (i.values m.cpu).length m.cpu.i))) }) :
    Intact m (i.leftover (m.dropLog.fetched w)).halt ↔
      m.bus.Settled m.cpu.i
        ((i.values m.cpu).take (m.bus.reach (i.values m.cpu).length m.cpu.i)) := by
  have reach : (m.dropLog.fetched w).bus.reach (i.values m.cpu).length m.cpu.i =
      m.bus.reach (i.values m.cpu).length m.cpu.i := Bus.reach_congr (regions_fetched m w) _ _
  generalize stored : (i.values m.cpu).take (m.bus.reach (i.values m.cpu).length m.cpu.i) = values
  rw [reach, stored] at stores
  have devices : ((m.dropLog.fetched w).bus.storeFrom m.cpu.i values).devices =
      (m.bus.storeFrom m.cpu.i values).devices :=
    Bus.devices_storeFrom_congr (regions_fetched m w) (devices_fetched m w) m.cpu.i values
  have mapped : ∀ k < values.length, m.bus.Maps (m.cpu.i + k) := by
    intro k inside
    rw [← stored] at inside
    exact Bus.maps_of_lt_length_take inside
  rw [← Bus.storeFrom_devices_eq_iff hb mapped, ← devices, stores]
  have marks := intact_fetched m w
  exact ⟨fun intact => intact.devices, fun same =>
    { marks with devices := same, regions := Bus.regions_storeFrom _ _ _ }⟩

/-- A failing instruction leaves the machine intact exactly if it leaves no trace. -/
theorem leftover_intact_iff (hb : m.bus.Backed) (w : Int) (i : Instruction) :
    Intact m (i.leftover (m.dropLog.fetched w)).halt ↔ i.LeavesNoTrace m := by
  have marks := intact_fetched m w
  have bytes (n : Nat) : (m.dropLog.fetched w).bus.bytesFrom n m.cpu.i =
      m.bus.bytesFrom n m.cpu.i :=
    Bus.bytesFrom_congr (regions_fetched m w) (devices_fetched m w) n m.cpu.i
  -- Instructions that store, load or draw leave something behind; the others fail before they do
  -- anything.
  cases i with
  | draw x y rows =>
      rw [Instruction.LeavesNoTrace, ← Display.drawBytes_eq_self_iff, ← bytes]
      exact ⟨fun intact => intact.display, fun same => { marks with display := same }⟩
  | storeDecimal x => exact store_intact_iff hb w rfl
  | storeRegisters x => exact store_intact_iff hb w rfl
  | loadRegisters x =>
      have room : (m.bus.bytesFrom (x.val + 1) m.cpu.i).length ≤ 16 := by
        have := m.bus.reach_le (x.val + 1) m.cpu.i
        rw [Bus.length_bytesFrom]
        omega
      have same := (m.dropLog.fetched w).cpu.v_loadFrom_eq_iff room
      rw [← bytes] at same
      rw [Instruction.LeavesNoTrace, ← bytes]
      exact ⟨fun intact => same.mp intact.v, fun held =>
        { marks with
          v := same.mpr held
          i := Cpu.i_loadFrom _ _ _
          sp := Cpu.sp_loadFrom _ _ _
          stack := Cpu.stack_loadFrom _ _ _
          delay := Cpu.delay_loadFrom _ _ _
          sound := Cpu.sound_loadFrom _ _ _ }⟩
  | _ => exact iff_of_true marks trivial

/-- A step of a running machine that fails leaves the machine intact exactly if the instruction
that it fetched, if it fetched one, leaves no trace. -/
theorem step_intact_iff (rams : m.bus.OfRams) (hc : m.cpu.Regular) (running : m.cpu.halted = false)
    {e : Fault} {m' : Machine} (failing : step m = (.error e, m')) :
    Intact m m' ↔ ∀ i, m.instruction? = some i → i.LeavesNoTrace m := by
  rcases step_failure_cases rams.backed hc failing with
    ⟨halted, _, _⟩ | ⟨_, word, xs, rfl⟩ | ⟨_, w, i, word, decoded, _, rfl⟩
  · rw [running] at halted
    cases halted
  · have intact : Intact m { m with bus := m.bus.dropLog.note xs }.halt := by
      constructor <;> rfl
    refine iff_of_true intact fun i fetched => ?_
    rw [instruction?, word] at fetched
    cases fetched
  · rw [leftover_intact_iff rams.backed w i, instruction?_of_word word, decoded]
    constructor
    · rintro traceless i' same
      cases same
      exact traceless
    · exact fun traceless => traceless i rfl

/-- A return that finds the stack empty leaves the machine intact. -/
theorem return_intact_at_start : ∃ e m',
    step (ofImage [0x00, 0xEE] (by decide)) = (.error e, m') ∧
      Intact (ofImage [0x00, 0xEE] (by decide)) m' := by
  refine ⟨_, _, rfl, ?_⟩
  refine (step_intact_iff (ofRams_ofImage [0x00, 0xEE] (by decide))
    (regular_ofImage [0x00, 0xEE] (by decide)) rfl rfl).mpr fun i fetched => ?_
  cases fetched
  trivial

/-- Two registers are stored at the last address of memory: the step fails, and the first of them
stays stored. -/
theorem store_past_end_not_intact : ∃ m e m', m.bus.OfRams ∧ m.cpu.Bounded ∧ IsWord m.cpu.pc ∧
    IsWord m.cpu.i ∧ m.cpu.halted = false ∧ step m = (.error e, m') ∧
    m.bus.peek? 1 = .ok 0x55 ∧ m'.bus.peek? 1 = .ok 0 ∧ ¬ Intact m m' := by
  refine ⟨{ ofImage [0xF1, 0x55] (by decide) with cpu := { Cpu.initial 0 with i := 1 } }, _, _,
    ofRams_ofImage [0xF1, 0x55] (by decide), { Cpu.bounded_initial 0 with }, by decide, by decide,
    rfl, rfl, rfl, rfl, fun intact => ?_⟩
  have zero : (0 : UInt8) = 0x55 := Bus.byteAt_congr intact.devices ⟨0, 1⟩
  cases zero

end Machine

end Chip8
