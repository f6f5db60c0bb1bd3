import Chip8.Proofs.Machine.Executing

/-!
The arithmetic of the registers, with results and flags as equations between integers.

An instruction with a flag splits what it computes into a byte and a carry, a borrow or a bit that
was shifted out (`Balances`). The flag is written last, so it is what VF holds even where VF is an
operand or the destination (`flagged_setFlag`); `arithmetic_balances` says so for every choice of
the registers.
-/

namespace Chip8

namespace Cpu

/-! ### Results with a flag -/

/-- How operands, result and flag of the instruction of group 8 with a lowest digit balance. -/
def Balances (digit : Nat) (a b result flag : Int) : Prop :=
  match digit with
  | 0x4 => a + b = 256 * flag + result
  | 0x5 => a - b = result - 256 * (1 - flag)
  | 0x6 => a = 2 * result + flag
  | 0x7 => b - a = result - 256 * (1 - flag)
  | 0xE => 2 * a = 256 * flag + result
  | _ => False

/-- The registers but for the general ones and the program counter are the same. -/
structure SameBeside (c c' : Cpu) : Prop where
  i : c'.i = c.i
  sp : c'.sp = c.sp
  stack : c'.stack = c.stack
  delay : c'.delay = c.delay
  sound : c'.sound = c.sound

/-- Registers became others by an instruction that puts a result in `x` and then a flag in VF. -/
structure Flagged (c : Cpu) (digit : Nat) (x y : Register) (c' : Cpu) : Prop where
  balance : ∃ result flag, IsByte result ∧ (flag = 0 ∨ flag = 1) ∧
    Balances digit (c.reg x) (c.reg y) result flag ∧ (x ≠ 0xF → c'.reg x = result) ∧
    c'.reg 0xF = flag
  others : ∀ r, r ≠ x → r ≠ 0xF → c'.reg r = c.reg r
  rest : c.SameBeside c'

/-- Registers became others by an instruction that puts a result in `x` and does nothing else. -/
structure Assigned (c : Cpu) (x : Register) (result : Int) (c' : Cpu) : Prop where
  result : c'.reg x = result
  others : ∀ r, r ≠ x → c'.reg r = c.reg r
  rest : c.SameBeside c'

variable {c : Cpu} {x y : Register}

theorem assigned_setReg (c : Cpu) (x : Register) (result : Int) :
    c.Assigned x result (c.setReg x result) where
  result := by rw [reg_setReg, if_pos rfl]
  others := by
    intro r other
    rw [reg_setReg, if_neg other]
  rest := ⟨rfl, rfl, rfl, rfl, rfl⟩

/-- The flag is written last, so where the result goes to VF it is lost. -/
theorem flagged_setFlag {digit : Nat} {result flag : Int} (byte : IsByte result)
    (bit : flag = 0 ∨ flag = 1) (balances : Balances digit (c.reg x) (c.reg y) result flag) :
    c.Flagged digit x y ((c.setReg x result).setFlag flag) where
  balance := by
    refine ⟨result, flag, byte, bit, balances, ?_, ?_⟩
    · intro other
      rw [setFlag, reg_setReg, if_neg other, reg_setReg, if_pos rfl]
    · rw [setFlag, reg_setReg, if_pos rfl]
      rcases bit with rfl | rfl <;> rfl
  others := by
    intro r other noFlag
    rw [setFlag, reg_setReg, if_neg noFlag, reg_setReg, if_neg other]
  rest := ⟨rfl, rfl, rfl, rfl, rfl⟩

/-- The flag that tells whether a condition holds is 0 or 1. -/
theorem bit_cases (p : Prop) [Decidable p] : (p ∧ bit p = 1) ∨ (¬ p ∧ bit p = 0) := by
  by_cases h : p
  · exact .inl ⟨h, by simp [bit, h]⟩
  · exact .inr ⟨h, by simp [bit, h]⟩

section Flags

variable (bytes : ∀ r, IsByte (c.reg r)) (x y : Register)

include bytes

theorem flagged_add : c.Flagged 0x4 x y (c.add x y) := by
  obtain ⟨lowX, highX⟩ := bytes x
  obtain ⟨lowY, highY⟩ := bytes y
  have carry := bit_cases (255 < c.reg x + c.reg y)
  apply flagged_setFlag (isByte_emod _)
  · omega
  · simp only [Balances]
    omega

theorem flagged_sub : c.Flagged 0x5 x y (c.sub x y) := by
  obtain ⟨lowX, highX⟩ := bytes x
  obtain ⟨lowY, highY⟩ := bytes y
  have noBorrow := bit_cases (c.reg y ≤ c.reg x)
  apply flagged_setFlag (isByte_emod _)
  · omega
  · simp only [Balances]
    omega

theorem flagged_subFrom : c.Flagged 0x7 x y (c.subFrom x y) := by
  obtain ⟨lowX, highX⟩ := bytes x
  obtain ⟨lowY, highY⟩ := bytes y
  have noBorrow := bit_cases (c.reg x ≤ c.reg y)
  apply flagged_setFlag (isByte_emod _)
  · omega
  · simp only [Balances]
    omega

theorem flagged_shiftRight : c.Flagged 0x6 x y (c.shiftRight x) := by
  obtain ⟨low, high⟩ := bytes x
  apply flagged_setFlag
  · constructor <;> omega
  · omega
  · simp only [Balances]
    omega

theorem flagged_shiftLeft : c.Flagged 0xE x y (c.shiftLeft x) := by
  obtain ⟨low, high⟩ := bytes x
  apply flagged_setFlag (isByte_emod _)
  · omega
  · simp only [Balances]
    omega

end Flags

/-! ### Results without a flag -/

/-- What the instruction of group 8 with a lowest digit below 4 makes of two bytes. -/
def combined (digit : Nat) (a b : Int) : Int :=
  match digit with
  | 0x0 => b
  | 0x1 => (a.toNat ||| b.toNat : Nat)
  | 0x2 => (a.toNat &&& b.toNat : Nat)
  | _ => (a.toNat ^^^ b.toNat : Nat)

section Combined

variable {a b : Int} (ha : IsByte a) (hb : IsByte b)

include ha hb

theorem combined_or : Bits.or a b = combined 0x1 a b := by
  obtain ⟨m, rfl, _⟩ := ha.eq_ofNat
  obtain ⟨n, rfl, _⟩ := hb.eq_ofNat
  rfl

theorem combined_and : Bits.and a b = combined 0x2 a b := by
  obtain ⟨m, rfl, _⟩ := ha.eq_ofNat
  obtain ⟨n, rfl, _⟩ := hb.eq_ofNat
  rfl

theorem combined_xor : Bits.xor a b = combined 0x3 a b := by
  obtain ⟨m, rfl, _⟩ := ha.eq_ofNat
  obtain ⟨n, rfl, _⟩ := hb.eq_ofNat
  rfl

end Combined

end Cpu

namespace Machine

open Word Cpu

variable {m : Machine} {w : Int} {i : Instruction} {r s : Register}

/-! ### Instructions -/

/-- An instruction that sets result and flag does so when it is executed, alone or in a step. -/
theorem executes_flagged {digit : Nat} {f : Cpu → Cpu} (encoded : i.Encodes w)
    (sets : i.execute = setCpu f) (bytes : ∀ r, IsByte (m.cpu.reg r))
    (law : ∀ c : Cpu, (∀ r, IsByte (c.reg r)) → c.Flagged digit r s (f c)) :
    m.Executes w fun m' => m.cpu.Flagged digit r s m'.cpu := by
  have fetched := law (m.dropLog.fetched w).cpu bytes
  exact executes_setCpu encoded sets (law m.cpu bytes)
    { fetched with rest := { fetched.rest with } }

theorem executes_assigned {f : Cpu → Cpu} {result : Int} (encoded : i.Encodes w)
    (sets : i.execute = setCpu f) (alone : f m.cpu = m.cpu.setReg r result)
    (fetched : f (m.dropLog.fetched w).cpu = (m.dropLog.fetched w).cpu.setReg r result) :
    m.Executes w fun m' => m.cpu.Assigned r result m'.cpu := by
  have assigned := assigned_setReg (m.dropLog.fetched w).cpu r result
  apply executes_setCpu encoded sets
  · rw [alone]
    exact assigned_setReg m.cpu r result
  · rw [fetched]
    exact { assigned with rest := { assigned.rest with } }

theorem executes_combined (bytes : ∀ r, IsByte (m.cpu.reg r)) (g : (group w).val = 0x8)
    (digit : (low w).val ≤ 0x3) : m.Executes w fun m' =>
      m.cpu.Assigned (x w) (combined (low w).val (m.cpu.reg (x w)) (m.cpu.reg (y w))) m'.cpu := by
  have first := bytes (x w)
  have second := bytes (y w)
  have cases : (low w).val = 0x0 ∨ (low w).val = 0x1 ∨ (low w).val = 0x2 ∨ (low w).val = 0x3 := by
    omega
  rcases cases with copy | or | and | xor
  · rw [copy]
    exact executes_assigned (i := .copy (x w) (y w)) ⟨g, copy, rfl, rfl⟩ rfl rfl rfl
  · rw [or, ← combined_or first second]
    exact executes_assigned (i := .or (x w) (y w)) ⟨g, or, rfl, rfl⟩ rfl rfl rfl
  · rw [and, ← combined_and first second]
    exact executes_assigned (i := .and (x w) (y w)) ⟨g, and, rfl, rfl⟩ rfl rfl rfl
  · rw [xor, ← combined_xor first second]
    exact executes_assigned (i := .xor (x w) (y w)) ⟨g, xor, rfl, rfl⟩ rfl rfl rfl

theorem executes_balanced (bytes : ∀ r, IsByte (m.cpu.reg r)) (g : (group w).val = 0x8)
    (digit : (low w).val ∈ [0x4, 0x5, 0x6, 0x7, 0xE]) :
    m.Executes w fun m' => m.cpu.Flagged (low w).val (x w) (y w) m'.cpu := by
  simp only [List.mem_cons, List.not_mem_nil, or_false] at digit
  rcases digit with add | sub | shiftRight | subFrom | shiftLeft
  · rw [add]
    exact executes_flagged (i := .add (x w) (y w)) ⟨g, add, rfl, rfl⟩ rfl bytes
      fun _ bytes => flagged_add bytes (x w) (y w)
  · rw [sub]
    exact executes_flagged (i := .sub (x w) (y w)) ⟨g, sub, rfl, rfl⟩ rfl bytes
      fun _ bytes => flagged_sub bytes (x w) (y w)
  · rw [shiftRight]
    exact executes_flagged (i := .shiftRight (x w)) ⟨g, shiftRight, rfl⟩ rfl bytes
      fun _ bytes => flagged_shiftRight bytes (x w) (y w)
  · rw [subFrom]
    exact executes_flagged (i := .subFrom (x w) (y w)) ⟨g, subFrom, rfl, rfl⟩ rfl bytes
      fun _ bytes => flagged_subFrom bytes (x w) (y w)
  · rw [shiftLeft]
    exact executes_flagged (i := .shiftLeft (x w)) ⟨g, shiftLeft, rfl⟩ rfl bytes
      fun _ bytes => flagged_shiftLeft bytes (x w) (y w)

/-- The instructions with a flag leave a byte and a flag that balance with their operands, the byte
in `x` unless that is VF and the flag in VF always. The others leave their result in `x` and VF
alone unless it is `x`. None of them fails or changes another register. -/
theorem arithmetic_balances (bytes : ∀ r, IsByte (m.cpu.reg r)) (w : Int) :
    ((group w).val = 0x8 → (low w).val ∈ [0x4, 0x5, 0x6, 0x7, 0xE] →
      m.Executes w fun m' => m.cpu.Flagged (low w).val (x w) (y w) m'.cpu) ∧
    ((group w).val = 0x8 → (low w).val ≤ 0x3 →
      m.Executes w fun m' =>
        m.cpu.Assigned (x w) (combined (low w).val (m.cpu.reg (x w)) (m.cpu.reg (y w))) m'.cpu) ∧
    ((group w).val = 0x7 →
      m.Executes w fun m' =>
        m.cpu.Assigned (x w) ((m.cpu.reg (x w) + (byte w).toNat) % 256) m'.cpu) := by
  refine ⟨executes_balanced bytes, executes_combined bytes, ?_⟩
  intro g
  exact executes_assigned (i := .addByte (x w) (byte w)) ⟨g, rfl, rfl⟩ rfl rfl rfl

/-- A machine about to add V1 to VF. -/
def addingToFlag : Machine :=
  { ofImage [0x8F, 0x14] (by decide) with
    cpu := ((Cpu.initial 0).setReg (register 15) 200).setReg (register 1) 100 }

/-- The flag overwrites the sum where VF is the destination. -/
theorem addingToFlag_leaves_carry : (∀ r, IsByte (addingToFlag.cpu.reg r)) ∧
    ∃ s m', step addingToFlag = (.ok s, m') ∧ m'.cpu.reg 0xF = 1 ∧ m'.cpu.reg 1 = 100 := by
  have bytes : ∀ r, IsByte (addingToFlag.cpu.reg r) := by decide
  refine ⟨bytes, ?_⟩
  have executes := (arithmetic_balances bytes 0x8F14).1 rfl (by decide)
  obtain ⟨s, m', stepped, flagged⟩ := executes.fetched ⟨rfl, rfl⟩
  obtain ⟨result, flag, ⟨low, high⟩, bit, balance, _, held⟩ := flagged.balance
  refine ⟨s, m', stepped, ?_, flagged.others 1 (by decide) (by decide)⟩
  have sum : (200 : Int) + 100 = 256 * flag + result := balance
  omega

end Machine

end Chip8
