import Chip8.Proofs.Machine.Transfer
import Chip8.Proofs.Memory.Registration

/-!
What executing an instruction can do.

On a backed bus and regular registers an instruction ends in the fault that `Instruction.fault?`
names from the state before it (`execute_fst`), and an instruction that ends in a fault leaves
`Instruction.leftover` (`execute_of_fault`). Whether it fails or not, the widths of the registers and
a binary screen are kept.
-/

namespace Chip8

namespace Instruction

open Machine

/-! ### Failing instructions -/

/-- The fault in which an instruction ends, if it does. -/
def fault? (m : Machine) : Instruction → Option Fault
  | .ret => if m.cpu.sp = 0 then some (.stackUnderflow m.cpu.currentAddress) else none
  | .call t =>
    if m.cpu.sp = stackDepth then some (.stackOverflow t.val m.cpu.currentAddress) else none
  | .draw _ _ rows => m.bus.transferFault? rows.val m.cpu.i
  | .storeDecimal _ => m.bus.transferFault? 3 m.cpu.i
  | .storeRegisters x | .loadRegisters x => m.bus.transferFault? (x.val + 1) m.cpu.i
  | _ => none

/-- The values that an instruction writes at the index register. -/
def values (c : Cpu) : Instruction → List Int
  | .storeDecimal x => decimalDigits (c.reg x)
  | .storeRegisters x => c.v.toList.take (x.val + 1)
  | _ => []

/-- What a failing instruction leaves: what it did before the first address that no region
covers. -/
def leftover (m : Machine) (i : Instruction) : Machine :=
  match i with
  | .draw x y rows =>
    let bytes := m.bus.bytesFrom rows.val m.cpu.i
    { m with
      bus := m.bus.note (Bus.reads m.cpu.i bytes)
      display := (m.display.drawBytes (m.cpu.reg x) (m.cpu.reg y) bytes).2 }
  | .storeDecimal _ | .storeRegisters _ =>
    let values := (i.values m.cpu).take (m.bus.reach (i.values m.cpu).length m.cpu.i)
    { m with bus := (m.bus.storeFrom m.cpu.i values).note (Bus.writes m.cpu.i values) }
  | .loadRegisters x =>
    let bytes := m.bus.bytesFrom (x.val + 1) m.cpu.i
    { m with cpu := m.cpu.loadFrom 0 bytes, bus := m.bus.note (Bus.reads m.cpu.i bytes) }
  | _ => m

variable {m : Machine}

/-- What an instruction writes into memory are bytes. -/
theorem isByte_of_mem_values {c : Cpu} (h : c.Regular) (i : Instruction) :
    ∀ v ∈ i.values c, IsByte v := by
  cases i with
  | storeDecimal x => exact isByte_of_mem_decimalDigits (h.registers x)
  | storeRegisters x => exact isByte_of_mem_registerBlock h x
  | _ => intro v mem; cases mem

/-- The instructions that write end in the fault of storing their values. -/
theorem execute_storeDecimal (hb : m.bus.Backed) (hc : m.cpu.Regular) (x : Register) :
    (storeDecimal x).execute m =
      (answer () ((storeDecimal x).fault? m), (storeDecimal x).leftover m) :=
  storeValues_eq hb m.cpu.i (isByte_of_mem_values hc (storeDecimal x))

/-- Storing ends in its fault, if any, with the values before it stored. -/
theorem execute_storeRegisters (hb : m.bus.Backed) (hc : m.cpu.Regular) (x : Register) :
    (storeRegisters x).execute m =
      (answer () ((storeRegisters x).fault? m), (storeRegisters x).leftover m) := by
  have stored := storeValues_eq hb m.cpu.i (isByte_of_mem_values hc (storeRegisters x))
  rw [fault?, ← length_registerBlock m.cpu x]
  exact stored

/-- Loading ends in its fault, if any, with the registers before it loaded. -/
theorem execute_loadRegisters (hb : m.bus.Backed) (x : Register) :
    (loadRegisters x).execute m =
      (answer () ((loadRegisters x).fault? m), (loadRegisters x).leftover m) := by
  have loaded := loadRegisters_eq hb m.cpu.i (x.val + 1) 0
  simp only [Int.natCast_zero, Int.add_zero] at loaded
  exact loaded

/-- An instruction ends in the fault that the state before it determines. -/
theorem execute_fst (hb : m.bus.Backed) (hc : m.cpu.Regular) (i : Instruction) :
    (i.execute m).1 = answer () (i.fault? m) := by
  have low := hc.sp_nonneg
  have high : m.cpu.sp ≤ 16 := hc.sp_le
  cases i with
  | ret =>
      simp only [execute, onCpu_apply, fault?]
      by_cases empty : m.cpu.sp = 0
      · rw [Cpu.ret_of_zero empty, if_pos empty, answer_some]
      · rw [Cpu.ret_of_pos (by omega) high, if_neg empty, answer_none]
  | call t =>
      simp only [execute, onCpu_apply, fault?]
      by_cases full : m.cpu.sp = stackDepth
      · rw [Cpu.call_of_full full, if_pos full, answer_some]
      · rw [Cpu.call_of_room low (Int.lt_iff_le_and_ne.mpr ⟨high, full⟩), if_neg full, answer_none]
  | draw x y rows =>
      simp only [execute, drawSprite_eq hb, fault?]
      cases m.bus.transferFault? rows.val m.cpu.i <;> rfl
  | storeDecimal x => rw [execute_storeDecimal hb hc]
  | storeRegisters x => rw [execute_storeRegisters hb hc]
  | loadRegisters x => rw [execute_loadRegisters hb]
  | awaitKey x =>
      rw [execute, awaitKey_apply]
      rfl
  | _ => rfl

/-- What an instruction that ends in a fault does. -/
theorem execute_of_fault (hb : m.bus.Backed) (hc : m.cpu.Regular) {i : Instruction} {e : Fault}
    (h : i.fault? m = some e) : i.execute m = (.error e, i.leftover m) := by
  cases i with
  | ret =>
      rw [fault?, Option.ite_none_right_eq_some, Option.some.injEq] at h
      obtain ⟨empty, rfl⟩ := h
      simp only [execute, onCpu_apply, Cpu.ret_of_zero empty, leftover]
  | call t =>
      rw [fault?, Option.ite_none_right_eq_some, Option.some.injEq] at h
      obtain ⟨full, rfl⟩ := h
      simp only [execute, onCpu_apply, Cpu.call_of_full full, leftover]
  | draw x y rows =>
      rw [fault?] at h
      simp only [execute, drawSprite_eq hb, h, leftover]
  | storeDecimal x => rw [execute_storeDecimal hb hc, h, answer_some]
  | storeRegisters x => rw [execute_storeRegisters hb hc, h, answer_some]
  | loadRegisters x => rw [execute_loadRegisters hb, h, answer_some]
  | _ => cases h

/-! ### What every instruction keeps -/

/-- Drawing and clearing leave a binary screen binary, and no other instruction touches it. -/
theorem isBinary_execute (hb : m.bus.Backed) (binary : m.display.IsBinary)
    (i : Instruction) : (i.execute m).2.display.IsBinary := by
  cases i with
  | clear => exact m.display.isBinary_clear
  | draw x y rows =>
      simp only [execute, drawSprite_eq hb]
      cases m.bus.transferFault? rows.val m.cpu.i <;> exact binary.drawBytes _ _ _
  | loadRegisters x =>
      rw [execute_loadRegisters hb]
      exact binary
  | awaitKey x =>
      rw [execute, awaitKey_apply]
      exact binary
  | _ => exact binary

/-- Each instruction masks what needs masking. A call stacks the program counter, which therefore
has to be a machine word. -/
theorem bounded_execute (h : m.cpu.Bounded) (pc : IsWord m.cpu.pc) (i : Instruction) :
    (i.execute m).2.cpu.Bounded := by
  cases i with
  | clear => exact h
  | ret => exact h.ret
  | jump t => exact { h with }
  | call t => exact h.call pc t
  | skipIfByte x b => exact h.skipIf _
  | skipUnlessByte x b => exact h.skipIf _
  | skipIfEqual x y => exact h.skipIf _
  | loadByte x b => exact h.setReg x (isByte_toNat b)
  | addByte x b => exact h.addByte x b
  | copy x y => exact h.combine (fun _ _ _ hb => hb) x y
  | or x y => exact h.combine (fun _ _ => IsByte.or) x y
  | and x y => exact h.combine (fun _ _ => IsByte.and) x y
  | xor x y => exact h.combine (fun _ _ => IsByte.xor) x y
  | add x y => exact h.add x y
  | sub x y => exact h.sub x y
  | shiftRight x => exact h.shiftRight x
  | subFrom x y => exact h.subFrom x y
  | shiftLeft x => exact h.shiftLeft x
  | skipUnlessEqual x y => exact h.skipIf _
  | loadIndex t => exact { h with }
  | jumpOffset t => exact { h with }
  | random x mask => exact h.setReg x (isByte_ofNat (Nat.and_lt_two_pow _ mask.toNat_lt))
  | draw x y rows =>
      -- The loop touches no register; the flag is set behind it.
      have kept : (drawSprite x y rows.val).Keeps fun m => m.cpu.Bounded :=
        drawSprite_of_closed Attempt.closed_keeps (Attempt.keeps_view _) (fun _ _ h => h)
          (fun _ _ _ _ h => h) (fun hit _ h => h.setFlag (Cpu.bit hit)) x y rows.val
      exact kept m h
  | skipIfKey x => exact h.skipIf _
  | skipUnlessKey x => exact h.skipIf _
  | readDelay x => exact h.setReg x h.delay
  | awaitKey x =>
      simp only [execute, awaitKey_apply]
      cases m.keypad.lowest? with
      | none => exact h.movePc (-2)
      | some k => exact h.setReg x (isByte_ofNat (by omega))
  | setDelay x => exact { h with delay := h.registers x }
  | setSound x => exact { h with sound := h.registers x }
  | addIndex x => exact { h with }
  | loadGlyph x => exact { h with }
  | storeDecimal x => exact h
  | storeRegisters x => exact h
  | loadRegisters x =>
      -- Each turn of the loop sets a register to a byte that was read.
      have kept : (Machine.loadRegisters m.cpu.i (x.val + 1) 0).Keeps fun m => m.cpu.Bounded :=
        loadRegisters_of_closed Attempt.closed_keeps (fun _ _ h => h) m.cpu.i (x.val + 1) 0
          fun _ _ byte _ h => h.setReg _ (isByte_toNat byte)
      exact kept m h

/-- Jumps, skips, calls, returns and waits keep the program counter a machine word. -/
theorem isWord_pc_execute (hb : m.bus.Backed) (h : m.cpu.Bounded) (pc : IsWord m.cpu.pc)
    (i : Instruction) : IsWord (i.execute m).2.cpu.pc := by
  cases i with
  | ret => exact Cpu.isWord_ret h pc
  | jump t => exact isWord_target t
  | call t => exact Cpu.isWord_call h.toRegular pc t
  | skipIfByte x b => exact Cpu.isWord_skipIf pc _
  | skipUnlessByte x b => exact Cpu.isWord_skipIf pc _
  | skipIfEqual x y => exact Cpu.isWord_skipIf pc _
  | skipUnlessEqual x y => exact Cpu.isWord_skipIf pc _
  | jumpOffset t => exact isWord_emod _
  | draw x y rows =>
      simp only [execute, drawSprite_eq hb]
      cases m.bus.transferFault? rows.val m.cpu.i <;> exact pc
  | skipIfKey x => exact Cpu.isWord_skipIf pc _
  | skipUnlessKey x => exact Cpu.isWord_skipIf pc _
  | awaitKey x =>
      simp only [execute, awaitKey_apply]
      cases m.keypad.lowest? with
      | none => exact Cpu.isWord_movePc m.cpu (-2)
      | some k => exact pc
  | loadRegisters x =>
      rw [execute_loadRegisters hb]
      simpa only [leftover, Cpu.pc_loadFrom] using pc
  | _ => exact pc

/-- Where every glyph starts at a machine word, the index register stays one. -/
theorem isWord_i_execute (hb : m.bus.Backed) (hc : m.cpu.Regular) (i : IsWord m.cpu.i)
    (low : 0 ≤ m.fontAddress) (high : m.fontAddress + 75 ≤ 65535) (instruction : Instruction) :
    IsWord (instruction.execute m).2.cpu.i := by
  cases instruction with
  | ret =>
      simp only [execute, onCpu_apply]
      by_cases empty : m.cpu.sp = 0
      · rwa [Cpu.ret_of_zero empty]
      · have := hc.sp_nonneg
        rwa [Cpu.ret_of_pos (by omega) hc.sp_le]
  | call t =>
      simp only [execute, onCpu_apply]
      have room := hc.sp_nonneg
      have high : m.cpu.sp ≤ 16 := hc.sp_le
      by_cases full : m.cpu.sp = 16
      · rwa [Cpu.call_of_full full]
      · rwa [Cpu.call_of_room room (by omega)]
  | skipIfByte x b => exact Cpu.isWord_i_skipIf i _
  | skipUnlessByte x b => exact Cpu.isWord_i_skipIf i _
  | skipIfEqual x y => exact Cpu.isWord_i_skipIf i _
  | skipUnlessEqual x y => exact Cpu.isWord_i_skipIf i _
  | loadIndex t => exact isWord_target t
  | draw x y rows =>
      simp only [execute, drawSprite_eq hb]
      cases m.bus.transferFault? rows.val m.cpu.i <;> exact i
  | skipIfKey x => exact Cpu.isWord_i_skipIf i _
  | skipUnlessKey x => exact Cpu.isWord_i_skipIf i _
  | awaitKey x =>
      simp only [execute, awaitKey_apply]
      cases m.keypad.lowest? <;> exact i
  | addIndex x => exact isWord_emod _
  | loadGlyph x =>
      simp only [execute, Attempt.bind_apply, Attempt.view_apply, setCpu_apply, Font.glyphAddress,
        Font.glyphSize]
      constructor <;> omega
  | loadRegisters x =>
      rw [execute_loadRegisters hb]
      simpa only [leftover, Cpu.i_loadFrom] using i
  | _ => exact i

end Instruction

end Chip8
