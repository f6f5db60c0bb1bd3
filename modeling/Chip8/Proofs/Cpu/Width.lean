import Chip8.Cpu

/-!
Widths: the ranges of the registers.

A processor is *regular* when its general registers hold bytes and its stack pointer counts return
addresses of the stack; then calls and returns find their slots (`call_of_room`, `ret_of_pos`). It
is *bounded* when besides the timers hold bytes, and the stack and the last word fetched machine
words. The program counter and the index register are left out: what is loaded into them at the
start need not be a machine word. Every operation keeps a processor bounded.
-/

namespace Chip8

/-! ### Bytes and words -/

def IsByte (n : Int) : Prop := 0 ≤ n ∧ n ≤ 255

def IsWord (n : Int) : Prop := 0 ≤ n ∧ n ≤ 65535

instance (n : Int) : Decidable (IsByte n) := inferInstanceAs (Decidable (_ ∧ _))

instance (n : Int) : Decidable (IsWord n) := inferInstanceAs (Decidable (_ ∧ _))

theorem isByte_emod (n : Int) : IsByte (n % 256) := by
  constructor <;> omega

theorem isWord_emod (n : Int) : IsWord (n % 65536) := by
  constructor <;> omega

/-- A machine word is what 16 bits leave as it is. -/
theorem emod_eq_self_iff_isWord {n : Int} : n % 65536 = n ↔ IsWord n := by
  constructor
  · intro same
    exact same ▸ isWord_emod n
  · rintro ⟨low, high⟩
    omega

theorem isByte_ofNat {n : Nat} (h : n < 256) : IsByte n := by
  constructor <;> omega

theorem isByte_toNat (b : UInt8) : IsByte b.toNat := isByte_ofNat b.toNat_lt

theorem isWord_target (t : Target) : IsWord t.val := by
  have := t.isLt
  constructor <;> omega

section Bits

variable {a b : Int}

theorem IsByte.eq_ofNat (h : IsByte a) : ∃ n : Nat, a = n ∧ n < 256 := by
  obtain ⟨low, high⟩ := h
  exact ⟨a.toNat, by omega, by omega⟩

theorem IsByte.or (ha : IsByte a) (hb : IsByte b) : IsByte (Bits.or a b) := by
  obtain ⟨m, rfl, hm⟩ := ha.eq_ofNat
  obtain ⟨n, rfl, hn⟩ := hb.eq_ofNat
  exact isByte_ofNat (Nat.or_lt_two_pow (n := 8) hm hn)

theorem IsByte.and (ha : IsByte a) (hb : IsByte b) : IsByte (Bits.and a b) := by
  obtain ⟨m, rfl, _⟩ := ha.eq_ofNat
  obtain ⟨n, rfl, hn⟩ := hb.eq_ofNat
  exact isByte_ofNat (Nat.and_lt_two_pow (n := 8) m hn)

theorem IsByte.xor (ha : IsByte a) (hb : IsByte b) : IsByte (Bits.xor a b) := by
  obtain ⟨m, rfl, hm⟩ := ha.eq_ofNat
  obtain ⟨n, rfl, hn⟩ := hb.eq_ofNat
  exact isByte_ofNat (Nat.xor_lt_two_pow (n := 8) hm hn)

end Bits

namespace Cpu

/-! ### Regular and bounded processors -/

/-- The general registers hold bytes and the stack pointer counts return addresses of the stack. -/
structure Regular (c : Cpu) : Prop where
  registers : ∀ x, IsByte (c.reg x)
  sp_nonneg : 0 ≤ c.sp
  sp_le : c.sp ≤ stackDepth

structure Bounded (c : Cpu) : Prop extends c.Regular where
  delay : IsByte c.delay
  sound : IsByte c.sound
  stack : ∀ k : Fin 16, IsWord (c.stack.get k)
  word : IsWord c.word

@[simp] theorem reg_initial (pc : Int) (x : Register) : (initial pc).reg x = 0 :=
  Vector.getElem_replicate x.isLt

@[simp] theorem stack_initial (pc : Int) (k : Fin 16) : (initial pc).stack.get k = 0 :=
  Vector.getElem_replicate k.isLt

theorem bounded_initial (pc : Int) : (initial pc).Bounded where
  registers x := by
    rw [reg_initial]
    decide
  sp_nonneg := by simp [initial]
  sp_le := by simp [initial, stackDepth]
  delay := by simp [initial, IsByte]
  sound := by simp [initial, IsByte]
  stack k := by
    rw [stack_initial]
    decide
  word := by simp [initial, IsWord]

/-! ### Calls -/

variable {c : Cpu}

theorem slot?_of_lt {k : Int} (low : 0 ≤ k) (high : k < 16) :
    slot? k = some ⟨k.toNat, by omega⟩ := by
  rw [slot?, dif_pos ⟨low, high⟩]

theorem call_of_full (h : c.sp = 16) (t : Target) :
    call t c = (.error (.stackOverflow t.val c.currentAddress), c) := by
  rw [call, if_pos (by simp [stackDepth, h])]

/-- With room on the stack, the program counter goes on it and the target into the program counter.
-/
theorem call_of_room (low : 0 ≤ c.sp) (high : c.sp < 16) (t : Target) :
    call t c = (.ok (),
      { c with stack := c.stack.set c.sp.toNat c.pc (by omega), sp := c.sp + 1, pc := t.val }) := by
  rw [call, if_neg (by simp only [stackDepth]; omega), slot?_of_lt low high]

theorem ret_of_zero (h : c.sp = 0) : ret c = (.error (.stackUnderflow c.currentAddress), c) := by
  rw [ret, if_pos h]

/-- With something on the stack, the program counter becomes what was put there last. -/
theorem ret_of_pos (low : 0 < c.sp) (high : c.sp ≤ 16) :
    ret c = (.ok (),
      { c with sp := c.sp - 1, pc := c.stack.get ⟨(c.sp - 1).toNat, by omega⟩ }) := by
  rw [ret, if_neg (by omega)]
  simp only
  rw [slot?_of_lt (by omega) (by omega)]

/-! ### Operations keep the widths -/

theorem Bounded.setReg (h : c.Bounded) (x : Register) {value : Int} (hv : IsByte value) :
    (c.setReg x value).Bounded :=
  { h with
    registers := by
      intro y
      rw [reg_setReg]
      by_cases same : y = x
      · rwa [if_pos same]
      · rw [if_neg same]
        exact h.registers y }

theorem Bounded.setFlag (h : c.Bounded) (value : Int) : (c.setFlag value).Bounded :=
  h.setReg 15 (isByte_emod value)

theorem Bounded.movePc (h : c.Bounded) (distance : Int) : (c.movePc distance).Bounded := { h with }

theorem Bounded.skipIf (h : c.Bounded) (p : Bool) : (c.skipIf p).Bounded := by
  cases p with
  | false => exact h
  | true => exact h.movePc 2

theorem Bounded.addByte (h : c.Bounded) (x : Register) (byte : UInt8) :
    (c.addByte x byte).Bounded :=
  h.setReg x (isByte_emod _)

/-- Combining registers by what keeps bytes bytes leaves the registers within their widths. -/
theorem Bounded.combine (h : c.Bounded) {f : Int → Int → Int}
    (hf : ∀ a b, IsByte a → IsByte b → IsByte (f a b)) (x y : Register) :
    (c.combine f x y).Bounded :=
  h.setReg x (hf _ _ (h.registers x) (h.registers y))

theorem Bounded.add (h : c.Bounded) (x y : Register) : (c.add x y).Bounded :=
  (h.setReg x (isByte_emod _)).setFlag _

theorem Bounded.sub (h : c.Bounded) (x y : Register) : (c.sub x y).Bounded :=
  (h.setReg x (isByte_emod _)).setFlag _

theorem Bounded.subFrom (h : c.Bounded) (x y : Register) : (c.subFrom x y).Bounded :=
  (h.setReg x (isByte_emod _)).setFlag _

/-- Shifting right needs no reduction: half of a byte is a byte. -/
theorem Bounded.shiftRight (h : c.Bounded) (x : Register) : (c.shiftRight x).Bounded := by
  obtain ⟨low, high⟩ := h.registers x
  have half : IsByte (c.reg x / 2) := by
    constructor <;> omega
  exact (h.setReg x half).setFlag _

theorem Bounded.shiftLeft (h : c.Bounded) (x : Register) : (c.shiftLeft x).Bounded :=
  (h.setReg x (isByte_emod _)).setFlag _

theorem Bounded.tick (h : c.Bounded) : c.tick.Bounded := by
  obtain ⟨delayLow, delayHigh⟩ := h.delay
  obtain ⟨soundLow, soundHigh⟩ := h.sound
  refine { h with delay := ?_, sound := ?_ }
  · simp only [Cpu.tick, IsByte]
    split <;> omega
  · simp only [Cpu.tick, IsByte]
    split <;> omega

/-- A call stacks the program counter, so that one has to be a machine word. -/
theorem Bounded.call (h : c.Bounded) (pc : IsWord c.pc) (t : Target) : (call t c).2.Bounded := by
  have low := h.sp_nonneg
  have high : c.sp ≤ 16 := h.sp_le
  by_cases full : c.sp = 16
  · rw [call_of_full full]
    exact h
  · rw [call_of_room low (by omega)]
    refine { h with sp_nonneg := ?_, sp_le := ?_, stack := fun k => ?_ }
    · simp only
      omega
    · simp only [stackDepth]
      omega
    · simp only [get_eq_getElem, Vector.getElem_set]
      split
      · exact pc
      · exact h.stack k

theorem Bounded.ret (h : c.Bounded) : (ret c).2.Bounded := by
  have low := h.sp_nonneg
  have high : c.sp ≤ 16 := h.sp_le
  by_cases empty : c.sp = 0
  · rw [ret_of_zero empty]
    exact h
  · rw [ret_of_pos (by omega) high]
    refine { h with sp_nonneg := ?_, sp_le := ?_ }
    · simp only
      omega
    · simp only [stackDepth]
      omega

/-! ### The program counter -/

theorem isWord_movePc (c : Cpu) (distance : Int) : IsWord (c.movePc distance).pc := isWord_emod _

theorem isWord_skipIf (pc : IsWord c.pc) (p : Bool) : IsWord (c.skipIf p).pc := by
  cases p with
  | false => exact pc
  | true => exact isWord_movePc c 2

/-- A call goes to an address of 12 bits, or nowhere. -/
theorem isWord_call (h : c.Regular) (pc : IsWord c.pc) (t : Target) : IsWord (call t c).2.pc := by
  have low := h.sp_nonneg
  have high : c.sp ≤ 16 := h.sp_le
  by_cases full : c.sp = 16
  · rw [call_of_full full]
    exact pc
  · rw [call_of_room low (by omega)]
    exact isWord_target t

/-- A return takes the program counter from the stack. -/
theorem isWord_ret (h : c.Bounded) (pc : IsWord c.pc) : IsWord (ret c).2.pc := by
  have low := h.sp_nonneg
  by_cases empty : c.sp = 0
  · rw [ret_of_zero empty]
    exact pc
  · rw [ret_of_pos (by omega) h.sp_le]
    exact h.stack _

/-! ### The index register -/

theorem isWord_i_skipIf (i : IsWord c.i) (p : Bool) : IsWord (c.skipIf p).i := by
  cases p <;> exact i

end Cpu

end Chip8
