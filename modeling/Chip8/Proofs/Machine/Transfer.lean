import Chip8.Machine.Execute
import Chip8.Proofs.Attempt
import Chip8.Proofs.Cpu.Width
import Chip8.Proofs.Display.Draw
import Chip8.Proofs.Memory.Transfer

/-!
The instructions that go through memory cell by cell.

A property that is closed under doing one action after another holds of a whole loop if it holds of
reading a byte and of what is done with it (`drawSprite_of_closed`, `loadRegisters_of_closed`).

On a backed bus such an instruction is one transfer. It ends in the fault of the transfer, and what it
does up to there is a function of the bytes before the first address that no region covers:
`drawSprite_eq`, `loadRegisters_eq` and `storeValues_eq`.
-/

namespace Chip8

/-- The registers with bytes loaded from register number `k` on. -/
def Cpu.loadFrom (c : Cpu) : Nat → List UInt8 → Cpu
  | _, [] => c
  | k, byte :: bytes => (c.setReg (register k) byte.toNat).loadFrom (k + 1) bytes

namespace Machine

/-! ### Loops -/

section Loops

variable {Q : {α : Type} → Attempt Machine α → Prop}

/-- What sequences keep holds of all rows if it holds of reading and of drawing one. -/
theorem drawRows_of_closed (closed : Attempt.Closed Q) (read : ∀ a, Q (onBus (Bus.read a)))
    (draw : ∀ x y bits, Q (onDisplay (Display.drawRow x y bits))) (x y address : Int)
    (rows row : Nat) (hit : Bool) : Q (drawRows x y address rows row hit) := by
  induction rows generalizing row hit with
  | zero => exact closed.pure hit
  | succ rows ih =>
      refine closed.bind (read _) fun bits => ?_
      refine closed.bind (draw _ _ bits) fun dark => ?_
      exact ih (row + 1) (hit || dark)

theorem drawSprite_of_closed (closed : Attempt.Closed Q) (view : Q (Attempt.view Machine.cpu))
    (read : ∀ a, Q (onBus (Bus.read a)))
    (draw : ∀ x y bits, Q (onDisplay (Display.drawRow x y bits)))
    (flag : ∀ hit, Q (setCpu fun c => c.setFlag (Cpu.bit hit))) (x y : Register) (rows : Nat) :
    Q (drawSprite x y rows) := by
  refine closed.bind view fun c => ?_
  exact closed.bind (drawRows_of_closed closed read draw _ _ _ rows 0 false) flag

/-- What sequences keep holds of all registers if it holds of reading and of setting one. -/
theorem loadRegisters_of_closed (closed : Attempt.Closed Q) (read : ∀ a, Q (onBus (Bus.read a)))
    (address : Int) (count k : Nat)
    (set : ∀ j < count, ∀ byte : UInt8,
      Q (setCpu fun c => c.setReg (Cpu.register (k + j)) byte.toNat)) :
    Q (loadRegisters address count k) := by
  induction count generalizing k with
  | zero => exact closed.pure ()
  | succ count ih =>
      refine closed.bind (read _) fun byte => ?_
      refine closed.bind (set 0 (by omega) byte) fun _ => ih (k + 1) fun j inside => ?_
      have later := set (j + 1) (by omega)
      rwa [show k + (j + 1) = k + 1 + j by omega] at later

end Loops

/-! ### Transfers -/

variable {m : Machine}

/-- Drawing the rows of a sprite draws those before the first address that no region covers. -/
theorem drawRows_eq (hb : m.bus.Backed) (x y address : Int) (rows row : Nat) (hit : Bool) :
    drawRows x y address rows row hit m =
      (answer
          (hit || (m.display.drawBytes x (y + row) (m.bus.bytesFrom rows (address + row))).1)
          (m.bus.transferFault? rows (address + row)),
        { m with
          bus := m.bus.note (Bus.reads (address + row) (m.bus.bytesFrom rows (address + row)))
          display :=
            (m.display.drawBytes x (y + row) (m.bus.bytesFrom rows (address + row))).2 }) := by
  induction rows generalizing row hit m with
  | zero => simp [drawRows, Bus.bytesFrom, Bus.transferFault?, Bus.reads]
  | succ rows ih =>
      by_cases mapped : m.bus.Maps (address + row)
      · obtain ⟨l, h⟩ := Bus.maps_iff.mp mapped
        have next : address + (row : Int) + 1 = address + ((row + 1 : Nat) : Int) := by omega
        have below : y + (row : Int) + 1 = y + ((row + 1 : Nat) : Int) := by omega
        simp only [drawRows, Attempt.bind_apply, onBus_apply, Bus.read_of_location hb h,
          onDisplay_apply]
        rw [ih (by simpa using hb)]
        simp [Bus.bytesFrom, Bus.transferFault?, Bus.reads, h, mapped, next, below, Bool.or_assoc]
      · simp [drawRows, Bus.read_of_not_maps mapped, Bus.bytesFrom, Bus.transferFault?, Bus.reads,
          Bus.location?_eq_none_iff.mpr mapped, mapped]

/-- Loading registers loads the bytes before the first address that no region covers. -/
theorem loadRegisters_eq (hb : m.bus.Backed) (address : Int) (count k : Nat) :
    loadRegisters address count k m =
      (answer () (m.bus.transferFault? count (address + k)),
        { m with
          cpu := m.cpu.loadFrom k (m.bus.bytesFrom count (address + k))
          bus := m.bus.note (Bus.reads (address + k) (m.bus.bytesFrom count (address + k))) }) := by
  induction count generalizing k m with
  | zero => simp [loadRegisters, Bus.bytesFrom, Bus.transferFault?, Bus.reads, Cpu.loadFrom]
  | succ count ih =>
      by_cases mapped : m.bus.Maps (address + k)
      · obtain ⟨l, h⟩ := Bus.maps_iff.mp mapped
        have next : address + (k : Int) + 1 = address + ((k + 1 : Nat) : Int) := by omega
        simp only [loadRegisters, Attempt.bind_apply, onBus_apply, Bus.read_of_location hb h,
          setCpu_apply]
        rw [ih (by simpa using hb)]
        simp [Bus.bytesFrom, Bus.transferFault?, Bus.reads, Cpu.loadFrom, h, mapped, next]
      · simp [loadRegisters, Bus.read_of_not_maps mapped, Bus.bytesFrom, Bus.transferFault?,
          Bus.reads, Cpu.loadFrom, Bus.location?_eq_none_iff.mpr mapped, mapped]

/-- Storing bytes stores those before the first address that no region covers. -/
theorem storeValues_eq (hb : m.bus.Backed) (address : Int) {values : List Int}
    (bytes : ∀ v ∈ values, IsByte v) :
    onBus (Bus.writeFrom address values) m =
      (answer () (m.bus.transferFault? values.length address),
        { m with
          bus := (m.bus.storeFrom address (values.take (m.bus.reach values.length address))).note
            (Bus.writes address (values.take (m.bus.reach values.length address))) }) := by
  rw [onBus_apply, Bus.writeFrom_eq hb address bytes]

/-- A sprite sets the flag only when all of its rows could be read. -/
theorem drawSprite_eq (hb : m.bus.Backed) (x y : Register) (rows : Nat) :
    drawSprite x y rows m =
      match m.bus.transferFault? rows m.cpu.i,
        m.display.drawBytes (m.cpu.reg x) (m.cpu.reg y) (m.bus.bytesFrom rows m.cpu.i) with
      | none, (hit, display) => (.ok (), { m with
          cpu := m.cpu.setFlag (Cpu.bit hit)
          bus := m.bus.note (Bus.reads m.cpu.i (m.bus.bytesFrom rows m.cpu.i))
          display := display })
      | some e, (_, display) => (.error e, { m with
          bus := m.bus.note (Bus.reads m.cpu.i (m.bus.bytesFrom rows m.cpu.i))
          display := display }) := by
  simp only [drawSprite, Attempt.bind_apply, Attempt.view_apply, drawRows_eq hb]
  cases fault : m.bus.transferFault? rows m.cpu.i with
  | none => simp [fault]
  | some e => simp [fault]

/-! ### What is stored -/

@[simp] theorem length_decimalDigits (value : Int) : (decimalDigits value).length = 3 := rfl

/-- The decimal digits of a byte are bytes. -/
theorem isByte_of_mem_decimalDigits {value : Int} (h : IsByte value) :
    ∀ d ∈ decimalDigits value, IsByte d := by
  obtain ⟨low, high⟩ := h
  intro d mem
  simp only [decimalDigits, List.mem_cons, List.not_mem_nil, or_false] at mem
  rcases mem with rfl | rfl | rfl
  · constructor <;> omega
  · constructor <;> omega
  · constructor <;> omega

theorem length_registerBlock (c : Cpu) (x : Register) :
    (c.v.toList.take (x.val + 1)).length = x.val + 1 := by
  have := x.isLt
  simp only [List.length_take, Vector.length_toList]
  omega

theorem isByte_of_mem_registerBlock {c : Cpu} (h : c.Regular) (x : Register) :
    ∀ v ∈ c.v.toList.take (x.val + 1), IsByte v := by
  intro v mem
  obtain ⟨k, inside, rfl⟩ := List.mem_iff_getElem.mp (List.mem_of_mem_take mem)
  rw [Vector.length_toList] at inside
  rw [Vector.getElem_toList]
  exact h.registers ⟨k, inside⟩

end Machine

/-! ### What is loaded -/

namespace Cpu

section Loaded

variable (c : Cpu) (k : Nat) (bytes : List UInt8)

/-- Loading changes nothing but the general registers. -/
theorem loadFrom_eq : c.loadFrom k bytes = { c with v := (c.loadFrom k bytes).v } := by
  induction bytes generalizing c k with
  | nil => rfl
  | cons byte bytes ih =>
      rw [Cpu.loadFrom, ih]
      rfl

@[simp] theorem pc_loadFrom : (c.loadFrom k bytes).pc = c.pc := by
  rw [loadFrom_eq]

@[simp] theorem i_loadFrom : (c.loadFrom k bytes).i = c.i := by
  rw [loadFrom_eq]

@[simp] theorem sp_loadFrom : (c.loadFrom k bytes).sp = c.sp := by
  rw [loadFrom_eq]

@[simp] theorem stack_loadFrom : (c.loadFrom k bytes).stack = c.stack := by
  rw [loadFrom_eq]

@[simp] theorem delay_loadFrom : (c.loadFrom k bytes).delay = c.delay := by
  rw [loadFrom_eq]

@[simp] theorem sound_loadFrom : (c.loadFrom k bytes).sound = c.sound := by
  rw [loadFrom_eq]

variable {k bytes}

/-- A register that nothing is loaded into keeps its value. -/
theorem reg_loadFrom_of_outside (room : k + bytes.length ≤ 16) {x : Register}
    (outside : x.val < k ∨ k + bytes.length ≤ x.val) : (c.loadFrom k bytes).reg x = c.reg x := by
  induction bytes generalizing c k with
  | nil => rfl
  | cons byte bytes ih =>
      rw [List.length_cons] at room outside
      have number : (register k).val = k := val_register (by omega)
      have other : x ≠ register k := by
        rintro rfl
        omega
      rw [loadFrom, ih _ (by omega) (by omega), reg_setReg, if_neg other]

/-- Register number `k + j` holds byte number `j` of those loaded from `k` on. -/
theorem reg_loadFrom_of_some (room : k + bytes.length ≤ 16) {x : Register} {j : Nat}
    (number : x.val = k + j) {byte : UInt8} (loaded : bytes[j]? = some byte) :
    (c.loadFrom k bytes).reg x = byte.toNat := by
  induction bytes generalizing c k j with
  | nil => cases loaded
  | cons first bytes ih =>
      rw [List.length_cons] at room
      cases j with
      | zero =>
          cases loaded
          have here : x = register k := Fin.ext (number.trans (val_register (by omega)).symm)
          rw [loadFrom, reg_loadFrom_of_outside _ (by omega) (.inl (by omega)), reg_setReg,
            if_pos here]
      | succ j => exact ih _ (k := k + 1) (j := j) (by omega) (by omega) (by simpa using loaded)

/-- Loading leaves the registers as they were exactly if they held the bytes already. -/
theorem v_loadFrom_eq_iff (room : bytes.length ≤ 16) :
    (c.loadFrom 0 bytes).v = c.v ↔
      ∀ (x : Register) (byte : UInt8), bytes[x.val]? = some byte → c.reg x = byte.toNat := by
  constructor
  · intro same x byte loaded
    have value := c.reg_loadFrom_of_some (k := 0) (by omega) (Nat.zero_add _).symm loaded
    rwa [reg, same] at value
  · intro already
    apply Vector.ext
    intro k hk
    change (c.loadFrom 0 bytes).reg ⟨k, hk⟩ = c.reg ⟨k, hk⟩
    cases loaded : bytes[k]? with
    | none =>
        have beyond := List.getElem?_eq_none_iff.mp loaded
        exact c.reg_loadFrom_of_outside (by omega) (.inr (by simpa using beyond))
    | some byte =>
        rw [c.reg_loadFrom_of_some (k := 0) (by omega) (Nat.zero_add _).symm loaded]
        exact (already ⟨k, hk⟩ byte loaded).symm

end Loaded

end Cpu

end Chip8
