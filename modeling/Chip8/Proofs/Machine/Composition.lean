import Chip8.Machine.Step
import Chip8.Proofs.Machine.Transfer
import Chip8.Proofs.Memory.Replay

/-!
Instructions as compositions: every instruction is put together from single reads and writes of the
bus, changes of the registers and of the display, draws of a random value, and looks at the
registers, the keypad and the font address (`composed_execute`). What is proved of each of these and
of one after the other holds of every instruction. Here: the bus changes by accesses alone
(`Composed.accessed`), the wiring of the machine stays (`wiring_execute`), and only a word that
stands for no instruction is reported (`reports_execute`).
-/

namespace Chip8

namespace Machine

/-- What nothing that happens to a machine changes: where its font and its programs start, and the
shape of its bus. -/
def wiring (m : Machine) : Int × Int × List Region × Array Device :=
  (m.fontAddress, m.programStart, m.bus.shape)

/-- Actions put together from accesses to the parts of a machine, one after the other. -/
inductive Composed : {α : Type} → Attempt Machine α → Prop where
  | pure {α : Type} (a : α) : Composed (Pure.pure a)
  | view {α : Type} (f : Cpu → Keypad → Int → α) :
      Composed (Attempt.view fun m => f m.cpu m.keypad m.fontAddress)
  | onCpu {α : Type} (act : Attempt Cpu α) : Composed (Machine.onCpu act)
  | onDisplay {α : Type} (act : Display → α × Display) : Composed (Machine.onDisplay act)
  | drawRandom : Composed Machine.drawRandom
  | read (a : Int) : Composed (onBus (Bus.read a))
  | write (a v : Int) : Composed (onBus (Bus.write a v))
  | bind {α β : Type} {x : Attempt Machine α} {f : α → Attempt Machine β} :
      Composed x → (∀ a, Composed (f a)) → Composed (x >>= f)

/-! ### Every instruction is composed -/

theorem composed_setCpu (f : Cpu → Cpu) : Composed (setCpu f) := .onCpu _

theorem onBus_bind {α β : Type} (x : Attempt Bus α) (f : α → Attempt Bus β) :
    onBus (x >>= f) = onBus x >>= fun a => onBus (f a) := by
  funext m
  simp only [onBus_apply, Attempt.bind_apply]
  cases x m.bus with
  | mk result b =>
      cases result with
      | ok a => rfl
      | error e => rfl

theorem closed_composed : Attempt.Closed Composed := ⟨.pure, .bind⟩

theorem composed_writeFrom (a : Int) (vs : List Int) : Composed (onBus (Bus.writeFrom a vs)) := by
  have closed : Attempt.Closed fun {_} x => Composed (onBus x) := by
    refine ⟨.pure, fun first rest => ?_⟩
    rw [onBus_bind]
    exact .bind first rest
  exact Bus.writeFrom_of_closed closed (fun v _ a => .write a v) a

theorem composed_drawSprite (x y : Register) (rows : Nat) : Composed (drawSprite x y rows) := by
  refine drawSprite_of_closed closed_composed (.view fun c _ _ => c) .read ?_ ?_ x y rows
  · exact fun _ _ _ => .onDisplay _
  · exact fun _ => composed_setCpu _

theorem composed_loadRegisters (address : Int) (count k : Nat) :
    Composed (loadRegisters address count k) :=
  loadRegisters_of_closed closed_composed .read address count k fun _ _ _ => composed_setCpu _

theorem composed_awaitKey (x : Register) : Composed (awaitKey x) := by
  refine .bind (.view fun _ keypad _ => keypad) fun keypad => ?_
  cases keypad.lowest? with
  | some k => exact composed_setCpu _
  | none => exact composed_setCpu _

/-- Every instruction is put together from accesses to the parts of the machine. -/
theorem composed_execute (i : Instruction) : Composed i.execute := by
  cases i with
  | clear => exact .onDisplay fun d => ((), d.clear)
  | ret => exact .onCpu Cpu.ret
  | call t => exact .onCpu (Cpu.call t)
  | random x mask => exact .bind .drawRandom fun _ => composed_setCpu _
  | draw x y rows => exact composed_drawSprite x y rows.val
  | skipIfKey x =>
      exact .bind (.view fun c keypad _ => keypad.isDown ⟨(c.reg x % 16).toNat, by omega⟩)
        fun _ => composed_setCpu _
  | skipUnlessKey x =>
      exact .bind (.view fun c keypad _ => keypad.isDown ⟨(c.reg x % 16).toNat, by omega⟩)
        fun _ => composed_setCpu _
  | awaitKey x => exact composed_awaitKey x
  | loadGlyph x => exact .bind (.view fun _ _ font => font) fun _ => composed_setCpu _
  | storeDecimal x => exact .bind (.view fun c _ _ => c) fun _ => composed_writeFrom _ _
  | storeRegisters x => exact .bind (.view fun c _ _ => c) fun _ => composed_writeFrom _ _
  | loadRegisters x => exact .bind (.view fun c _ _ => c) fun _ => composed_loadRegisters _ _ _
  | _ => exact composed_setCpu _

theorem composed_fetch : Composed fetch := by
  refine .bind (.view fun c _ _ => c.pc) fun pc => ?_
  refine .bind (.read pc) fun high => ?_
  refine .bind (.read (pc + 1)) fun low => ?_
  exact .bind (composed_setCpu _) fun _ => .pure _

/-! ### What compositions do to the bus, the wiring and the reports -/

variable {α : Type} {x : Attempt Machine α}

/-- Compositions change the bus by accesses alone. -/
theorem Composed.accessed (h : Composed x) : x.Leads fun m m' => m.bus.Accessed m'.bus := by
  induction h with
  | read a => exact fun _ => .read a .refl
  | write a v => exact fun _ => .write a v .refl
  | bind _ _ first rest => exact first.bind rest fun before after => before.trans after
  | _ => exact fun _ => .refl

theorem wiring_onBus {act : Attempt Bus α} {m : Machine}
    (shape : (act m.bus).2.shape = m.bus.shape) : (Machine.onBus act m).2.wiring = m.wiring := by
  simp only [wiring, onBus_apply, shape]

/-- Compositions leave the wiring alone. -/
theorem Composed.wiring (h : Composed x) : x.Leads fun m m' => m'.wiring = m.wiring := by
  induction h with
  | read a => exact fun m => wiring_onBus (Bus.shape_read a m.bus)
  | write a v => exact fun m => wiring_onBus (Bus.shape_write a v m.bus)
  | bind _ _ first rest => exact first.bind rest fun before after => after.trans before
  | _ => exact fun _ => rfl

/-- Compositions report nothing. -/
theorem Composed.reports (h : Composed x) : x.Leads fun m m' => m'.reports = m.reports := by
  induction h with
  | bind _ _ first rest => exact first.bind rest fun before after => after.trans before
  | _ => exact fun _ => rfl

/-- An operation changes the bus by accesses alone. -/
theorem accessed_execute (o : Operation) : o.execute.Leads fun m m' => m.bus.Accessed m'.bus := by
  unfold Operation.execute
  cases o.instruction? with
  | some i => exact (composed_execute i).accessed
  | none => exact fun _ => .refl

/-- An operation leaves the wiring alone. -/
theorem wiring_execute (o : Operation) (m : Machine) : (o.execute m).2.wiring = m.wiring := by
  unfold Operation.execute
  cases o.instruction? with
  | some i => exact (composed_execute i).wiring m
  | none => rfl

/-- What a word does to the bus it does by accesses. -/
theorem accessed_fetchAndExecute : fetchAndExecute.Leads fun m m' => m.bus.Accessed m'.bus := by
  refine composed_fetch.accessed.bind (fun w => ?_) fun before after => before.trans after
  exact (accessed_execute _).bind (fun _ _ => .refl) fun before after => before.trans after

/-- Only a word that stands for no instruction is reported, and only once. -/
theorem reports_execute (o : Operation) (m : Machine) :
    (o.execute m).2.reports =
      match o.instruction? with
      | some _ => m.reports
      | none => m.reports ++ [⟨o.word, m.cpu.currentAddress⟩] := by
  unfold Operation.execute
  cases o.instruction? with
  | some i => exact (composed_execute i).reports m
  | none => rfl

end Machine

end Chip8
