import Chip8.Proofs.Machine.Block
import Chip8.Proofs.Machine.Executing

/-!
Storing and loading are inverse to each other (`block_transfers_round_trip`).

Registers that were stored are loaded back from the same addresses, whatever happened to the
registers since. Registers that were loaded leave memory as it is when they are stored back. The
decimal digits of a register that were stored are loaded as digits that make up its value.
-/

namespace Chip8.Machine

variable {m m' : Machine} {w : Int} {i : Instruction} {x : Register}

/-! ### Storing -/

/-- A machine became another by storing values from its index register on. -/
structure Stored (m : Machine) (values : List Int) (m' : Machine) : Prop where
  index : m'.cpu.i = m.cpu.i
  bus : m'.bus.dropLog = (m.bus.storeFrom m.cpu.i values).dropLog

/-- An instruction that writes values stores them where all of them have an address. -/
theorem executes_store (hb : m.bus.Backed) (encoded : i.Encodes w)
    (writes : ∀ n : Machine, i.execute n = onBus (Bus.writeFrom n.cpu.i (i.values n.cpu)) n)
    (same : i.values (m.dropLog.fetched w).cpu = i.values m.cpu)
    (bytes : ∀ v ∈ i.values m.cpu, IsByte v)
    (mapped : ∀ k < (i.values m.cpu).length, m.bus.Maps (m.cpu.i + k)) :
    m.Executes w (m.Stored (i.values m.cpu)) := by
  have hb' : (m.dropLog.fetched w).bus.Backed := hb
  apply executes_of_execute encoded
  · exact ⟨_, (writes m).trans (storeValues_of_maps hb bytes mapped), rfl, rfl⟩
  · rw [writes, same]
    refine ⟨_, storeValues_of_maps hb' bytes mapped, rfl, ?_⟩
    apply Bus.dropLog_eq
    · rw [Bus.regions_note, Bus.regions_storeFrom, Bus.regions_storeFrom]
      rfl
    · exact Bus.devices_storeFrom_congr (regions_fetched m w) (devices_fetched m w) m.cpu.i
        (i.values m.cpu)
  · intro m' cycles stored
    exact { stored with }

/-- Memory holds what was stored, and is unchanged elsewhere. -/
theorem Stored.memory {values : List Int} (stored : m.Stored values m') (hb : m.bus.Backed)
    (separate : m.bus.Separate) (bytes : ∀ v ∈ values, IsByte v)
    (mapped : ∀ k < values.length, m.bus.Maps (m.cpu.i + k)) :
    m.bus.Stores m.cpu.i values m'.bus := by
  have stores := Bus.stores_storeFrom hb separate bytes mapped
  constructor
  · intro k v value
    rw [Bus.peek?_of_dropLog stored.bus]
    exact stores.stored k v value
  · intro a outside
    rw [Bus.peek?_of_dropLog stored.bus]
    exact stores.others a outside

/-! ### Loading -/

/-- A machine became another by loading bytes into its registers from V0 on. -/
structure Loaded (m : Machine) (bytes : List UInt8) (m' : Machine) : Prop where
  index : m'.cpu.i = m.cpu.i
  bus : m'.bus.dropLog = m.bus.dropLog
  loaded : ∀ (r : Register) (byte : UInt8), bytes[r.val]? = some byte → m'.cpu.reg r = byte.toNat
  others : ∀ r : Register, bytes.length ≤ r.val → m'.cpu.reg r = m.cpu.reg r

/-- Loading puts the bytes that are held into the registers and does nothing else. -/
theorem loaded_loadRegisters {bytes : List UInt8} (holds : m.bus.Holds m.cpu.i bytes)
    (room : bytes.length ≤ 16) :
    ∃ m', loadRegisters m.cpu.i bytes.length 0 m = (.ok (), m') ∧ m.Loaded bytes m' := by
  rw [← Bus.holds_add_zero] at holds
  refine ⟨_, loadRegisters_of_holds holds, m.cpu.i_loadFrom 0 bytes, rfl, ?_, ?_⟩
  · intro r byte found
    exact m.cpu.reg_loadFrom_of_some (by omega) (Nat.zero_add _).symm found
  · intro r beyond
    exact m.cpu.reg_loadFrom_of_outside (by omega) (.inr (by omega))

/-- Loading V0 to `x` loads the bytes that are there. -/
theorem executes_load (encoded : (Instruction.loadRegisters x).Encodes w) {bytes : List UInt8}
    (length : bytes.length = x.val + 1) (holds : m.bus.Holds m.cpu.i bytes) :
    m.Executes w (m.Loaded bytes) := by
  have room : bytes.length ≤ 16 := by omega
  apply executes_of_execute encoded
  · rw [Instruction.execute]
    simp only [Attempt.bind_apply, Attempt.view_apply, ← length]
    exact loaded_loadRegisters holds room
  · rw [Instruction.execute]
    simp only [Attempt.bind_apply, Attempt.view_apply, ← length]
    obtain ⟨m', executed, loaded⟩ := loaded_loadRegisters (m := m.dropLog.fetched w) holds room
    exact ⟨m', executed, { loaded with }⟩
  · intro m' cycles loaded
    exact { loaded with }

/-! ### There and back -/

theorem getElem?_registerBlock (c : Cpu) {r : Register} (below : r ≤ x) :
    (c.v.toList.take (x.val + 1))[r.val]? = some (c.reg r) := by
  have inside : r.val < x.val + 1 := Nat.lt_succ_of_le below
  rw [List.getElem?_take_of_lt inside, Vector.getElem?_toList, Vector.getElem?_eq_getElem r.isLt]
  rfl

/-- Registers that were loaded hold the block that was read. -/
theorem registerBlock_eq (c : Cpu) {bytes : List UInt8} (length : bytes.length = x.val + 1)
    (held : ∀ (r : Register) (byte : UInt8), bytes[r.val]? = some byte → c.reg r = byte.toNat) :
    c.v.toList.take (x.val + 1) = bytes.map fun byte => (byte.toNat : Int) := by
  apply List.ext_getElem
  · rw [length_registerBlock, List.length_map, length]
  · intro k inside inside'
    rw [List.length_map] at inside'
    have number : k < 16 := by omega
    have register := held ⟨k, number⟩ bytes[k] (List.getElem?_eq_getElem inside')
    rw [List.getElem_map, List.getElem_take, Vector.getElem_toList, ← register]
    rfl

/-- A machine became another by storing V0 to `x` from its index register on, and nothing else in
memory changed. Any machine that finds the same bytes at its index register loads these registers
back, whatever its own hold. -/
structure Saved (m : Machine) (x : Register) (m' : Machine) : Prop where
  stored : ∀ r ≤ x, ∃ byte : UInt8,
    m'.bus.peek? (m.cpu.i + r.val) = .ok byte ∧ (byte.toNat : Int) = m.cpu.reg r
  others : ∀ a, a < m.cpu.i ∨ m.cpu.i + x.val < a → m'.bus.peek? a = m.bus.peek? a
  index : m'.cpu.i = m.cpu.i
  restored : ∀ (later : Machine) (w' : Int), later.cpu.i = m.cpu.i →
    (∀ r ≤ x, later.bus.peek? (m.cpu.i + r.val) = m'.bus.peek? (m.cpu.i + r.val)) →
    (Instruction.loadRegisters x).Encodes w' →
    later.Executes w' fun after =>
      (∀ r ≤ x, after.cpu.reg r = m.cpu.reg r) ∧ ∀ r, x < r → after.cpu.reg r = later.cpu.reg r

/-- Loading bytes that were stored restores the registers that they were stored from. -/
theorem executes_load_of_saved {saved : Cpu} (regular : saved.Regular)
    (encoded : (Instruction.loadRegisters x).Encodes w)
    (holds : m.bus.Holds m.cpu.i
      (((Instruction.storeRegisters x).values saved).map fun v => UInt8.ofNat v.toNat)) :
    m.Executes w fun m' =>
      (∀ r ≤ x, m'.cpu.reg r = saved.reg r) ∧ ∀ r, x < r → m'.cpu.reg r = m.cpu.reg r := by
  have length : (((Instruction.storeRegisters x).values saved).map
      fun v => UInt8.ofNat v.toNat).length = x.val + 1 := by
    rw [List.length_map]
    exact length_registerBlock saved x
  refine (executes_load encoded length holds).mono ?_
  intro m' loaded
  constructor
  · intro r below
    have found := congrArg (Option.map fun v => UInt8.ofNat v.toNat)
      (getElem?_registerBlock saved below)
    rw [← List.getElem?_map] at found
    rw [loaded.loaded r _ found, Bus.toNat_ofNat_toNat (regular.registers r)]
  · intro r above
    apply loaded.others
    rw [length]
    exact above

/-- Storing V0 to `x` saves them. -/
theorem executes_storeRegisters (hb : m.bus.Backed) (separate : m.bus.Separate)
    (hc : m.cpu.Regular) (encoded : (Instruction.storeRegisters x).Encodes w)
    (mapped : ∀ k ≤ x.val, m.bus.Maps (m.cpu.i + k)) : m.Executes w (m.Saved x) := by
  have bytes := Instruction.isByte_of_mem_values hc (.storeRegisters x)
  have length : ((Instruction.storeRegisters x).values m.cpu).length = x.val + 1 :=
    length_registerBlock m.cpu x
  have covered : ∀ k < ((Instruction.storeRegisters x).values m.cpu).length,
      m.bus.Maps (m.cpu.i + k) := by
    intro k inside
    exact mapped k (by omega)
  refine (executes_store hb encoded (fun _ => rfl) rfl bytes covered).mono ?_
  intro m' stored
  have memory := stored.memory hb separate bytes covered
  constructor
  · intro r below
    exact memory.stored r.val (m.cpu.reg r) (getElem?_registerBlock m.cpu below)
  · intro a outside
    exact memory.others a (by omega)
  · exact stored.index
  · intro later w' index same encoded'
    -- A later load depends on nothing but the bytes of the block.
    have holds : later.bus.Holds later.cpu.i
        (((Instruction.storeRegisters x).values m.cpu).map fun v => UInt8.ofNat v.toNat) := by
      rw [index]
      refine memory.holds.of_peek? fun k inside => ?_
      rw [List.length_map, length] at inside
      exact same ⟨k, by omega⟩ (Nat.le_of_lt_succ inside)
    exact executes_load_of_saved hc encoded' holds

/-- Registers that were loaded are stored back without a change of memory. -/
theorem executes_storeRegisters_of_loaded (hb : m.bus.Backed) {bytes : List UInt8}
    (encoded : (Instruction.storeRegisters x).Encodes w) (length : bytes.length = x.val + 1)
    (holds : m.bus.Holds m.cpu.i bytes)
    (held : ∀ (r : Register) (byte : UInt8), bytes[r.val]? = some byte →
      m.cpu.reg r = byte.toNat) :
    m.Executes w fun m' => m'.bus.dropLog = m.bus.dropLog := by
  have block := registerBlock_eq m.cpu length held
  have isBytes : ∀ v ∈ m.cpu.v.toList.take (x.val + 1), IsByte v := by
    rw [block]
    intro v mem
    obtain ⟨byte, _, rfl⟩ := List.mem_map.mp mem
    exact isByte_toNat byte
  have covered : ∀ k < (m.cpu.v.toList.take (x.val + 1)).length, m.bus.Maps (m.cpu.i + k) := by
    intro k inside
    rw [block, List.length_map] at inside
    exact Bus.maps_of_peek? (holds k _ (List.getElem?_eq_getElem inside))
  refine (executes_store hb encoded (fun _ => rfl) rfl isBytes covered).mono ?_
  intro m' stored
  rw [stored.bus, Instruction.values, block]
  exact Bus.dropLog_eq (Bus.regions_storeFrom _ _ _) (Bus.storeFrom_held hb holds)

/-- The decimal digits of a register that were stored are loaded into V0, V1 and V2. -/
theorem loads_digits (hb : m.bus.Backed) (separate : m.bus.Separate) (hc : m.cpu.Regular)
    (mapped : ∀ k ≤ 2, m.bus.Maps (m.cpu.i + (k : Nat)))
    (stored : m.Stored ((Instruction.storeDecimal x).values m.cpu) m')
    (encoded : (Instruction.loadRegisters 2).Encodes w) :
    m'.Executes w fun m'' =>
      (∀ r ≤ 2, 0 ≤ m''.cpu.reg r ∧ m''.cpu.reg r ≤ 9) ∧
      100 * m''.cpu.reg 0 + 10 * m''.cpu.reg 1 + m''.cpu.reg 2 = m.cpu.reg x ∧
      ∀ a, a < m.cpu.i ∨ m.cpu.i + 2 < a → m''.bus.peek? a = m.bus.peek? a := by
  have bytes := Instruction.isByte_of_mem_values hc (.storeDecimal x)
  have memory := stored.memory hb separate bytes fun k inside => mapped k (Nat.le_of_lt_succ inside)
  have holds := memory.holds
  rw [← stored.index] at holds
  refine (executes_load encoded rfl holds).mono ?_
  intro m'' loaded
  obtain ⟨low, high⟩ := hc.registers x
  -- The three digits come back one register each.
  have hundreds := loaded.loaded 0 _ rfl
  have tens := loaded.loaded 1 _ rfl
  have ones := loaded.loaded 2 _ rfl
  rw [Bus.toNat_ofNat_toNat (by omega)] at hundreds tens ones
  refine ⟨?_, ?_, ?_⟩
  · intro r below
    have number : r = 0 ∨ r = 1 ∨ r = 2 := by decide +revert
    rcases number with rfl | rfl | rfl
    · omega
    · omega
    · omega
  · omega
  · intro a outside
    have length : ((Instruction.storeDecimal x).values m.cpu).length = 3 := rfl
    rw [Bus.peek?_of_dropLog loaded.bus]
    exact memory.others a (by omega)

/-- Where all addresses of a block are mapped: registers that are stored can be loaded back at any
later time, whatever the registers hold by then; loading registers and storing them back leaves
memory as it was; and storing the decimal digits of a register and loading them leaves digits that
make up its value. -/
theorem block_transfers_round_trip (rams : m.bus.OfRams) (distinct : m.bus.Distinct)
    (hc : m.cpu.Regular) (x : Register) :
    (∀ w, (Instruction.storeRegisters x).Encodes w →
      (∀ k ≤ x.val, m.bus.Maps (m.cpu.i + k)) → m.Executes w (m.Saved x)) ∧
    (∀ w w', (Instruction.loadRegisters x).Encodes w → (Instruction.storeRegisters x).Encodes w' →
      (∀ k ≤ x.val, m.bus.Maps (m.cpu.i + k)) →
      m.Executes w fun m' => m'.Executes w' fun m'' => m''.bus.dropLog = m.bus.dropLog) ∧
    (∀ w w', (Instruction.storeDecimal x).Encodes w → (Instruction.loadRegisters 2).Encodes w' →
      (∀ k ≤ 2, m.bus.Maps (m.cpu.i + (k : Nat))) →
      m.Executes w fun m' => m'.Executes w' fun m'' =>
        (∀ r ≤ 2, 0 ≤ m''.cpu.reg r ∧ m''.cpu.reg r ≤ 9) ∧
        100 * m''.cpu.reg 0 + 10 * m''.cpu.reg 1 + m''.cpu.reg 2 = m.cpu.reg x ∧
        ∀ a, a < m.cpu.i ∨ m.cpu.i + 2 < a → m''.bus.peek? a = m.bus.peek? a) := by
  have hb := rams.backed
  have separate := distinct.separate
  refine ⟨?_, ?_, ?_⟩
  · intro w encoded mapped
    exact executes_storeRegisters hb separate hc encoded mapped
  · intro w w' encoded encoded' mapped
    obtain ⟨bytes, length, holds⟩ :=
      hb.fitted.exists_holds (n := x.val + 1) fun k inside => mapped k (Nat.le_of_lt_succ inside)
    refine (executes_load encoded length holds).mono ?_
    intro m' loaded
    -- Loading only reads, so the bus is the same but for its log.
    have shape : m'.bus.dropLog.shape = m.bus.dropLog.shape := congrArg Bus.shape loaded.bus
    have hb' : m'.bus.Backed := hb.of_shape shape
    have holds' : m'.bus.Holds m'.cpu.i bytes := by
      rw [loaded.index]
      exact holds.of_peek? fun k _ => Bus.peek?_of_dropLog loaded.bus (m.cpu.i + k)
    refine (executes_storeRegisters_of_loaded hb' encoded' length holds' loaded.loaded).mono ?_
    intro m'' same
    exact same.trans loaded.bus
  · intro w w' encoded encoded' mapped
    have bytes := Instruction.isByte_of_mem_values hc (.storeDecimal x)
    have covered : ∀ k < 3, m.bus.Maps (m.cpu.i + (k : Nat)) := by
      intro k inside
      exact mapped k (Nat.le_of_lt_succ inside)
    refine (executes_store hb encoded (fun _ => rfl) rfl bytes covered).mono ?_
    intro m' stored
    exact loads_digits hb separate hc mapped stored encoded'

/-- A machine about to store V0 and V1 from address 2 on. -/
def savingTwo : Machine :=
  { ofImage [0xF1, 0x55, 0, 0] (by decide) with
    cpu := { ((Cpu.initial 0).setReg (Cpu.register 0) 7).setReg (Cpu.register 1) 9 with i := 2 } }

/-- Two registers are stored, and loaded back after one of them was cleared. -/
theorem savingTwo_comes_back :
    (savingTwo.bus.OfRams ∧ savingTwo.bus.Distinct ∧ savingTwo.cpu.Regular) ∧
    ∃ s saved, step savingTwo = (.ok s, saved) ∧
      ∃ back, (Operation.ofWord 0xF165).execute { saved with cpu := savingTwo.cpu.setReg 0 0 } =
        (.ok (), back) ∧ back.cpu.reg 0 = 7 ∧ back.cpu.reg 1 = 9 := by
  have rams : savingTwo.bus.OfRams := ofRams_ofImage [0xF1, 0x55, 0, 0] (by decide)
  have distinct : savingTwo.bus.Distinct := by
    simp [Bus.Distinct, savingTwo, ofImage, create, Bus.single]
  have regular : savingTwo.cpu.Regular := ⟨by decide, by decide, by decide⟩
  have mapped : ∀ k ≤ (1 : Register).val, savingTwo.bus.Maps (savingTwo.cpu.i + k) := by decide
  refine ⟨⟨rams, distinct, regular⟩, ?_⟩
  obtain ⟨s, saved, stepped, kept⟩ :=
    ((block_transfers_round_trip rams distinct regular 1).1 0xF155 ⟨rfl, rfl, rfl⟩ mapped).fetched
      ⟨rfl, rfl⟩
  obtain ⟨back, executed, restored, _⟩ :=
    (kept.restored { saved with cpu := savingTwo.cpu.setReg 0 0 } 0xF165 rfl (fun _ _ => rfl)
      ⟨rfl, rfl, rfl⟩).alone
  exact ⟨s, saved, stepped, back, executed, restored 0 (by decide), restored 1 (by decide)⟩

end Chip8.Machine
