import Chip8.Proofs.Machine.Event
import Chip8.Proofs.Machine.Touch

/-!
The discipline of the stack.

A step leaves the stack as it is, or it is a call that puts the address of the next word on top, or
a return that goes to the address on top (`step_stack_cases`). So what lies below the stack pointer
of a caller stays there until the pointer is back where it was (`Awaits.undergoAll`), and it comes
back by a return to the word behind the call (`call_returns_behind`), however many calls happen in
between and whatever happens to memory.
-/

namespace Chip8.Machine

open Word

variable {m : Machine} {w : Int}

/-! ### One step -/

structure KeepsStack (m m' : Machine) : Prop where
  sp : m'.cpu.sp = m.cpu.sp
  slots : ∀ k, m'.cpu.stack.get k = m.cpu.stack.get k

/-- The address of the next word is put on top of the stack. -/
structure Pushes (m m' : Machine) : Prop where
  room : m.cpu.sp < 16
  sp : m'.cpu.sp = m.cpu.sp + 1
  top : ∀ k : Fin 16, (k.val : Int) = m.cpu.sp → m'.cpu.stack.get k = (m.cpu.pc + 2) % 65536
  others : ∀ k : Fin 16, (k.val : Int) ≠ m.cpu.sp → m'.cpu.stack.get k = m.cpu.stack.get k

/-- The address on top of the stack is taken off and gone to. -/
structure Pops (m m' : Machine) : Prop where
  sp : m'.cpu.sp = m.cpu.sp - 1
  pc : ∀ k : Fin 16, (k.val : Int) = m.cpu.sp - 1 → m'.cpu.pc = m.cpu.stack.get k
  slots : ∀ k, m'.cpu.stack.get k = m.cpu.stack.get k

/-- A call with room on the stack succeeds and pushes the address behind it. -/
theorem step_of_call (fetches : m.Fetches w) (call : (group w).val = 0x2) (nonneg : 0 ≤ m.cpu.sp)
    (room : m.cpu.sp < 16) : (∃ s, (step m).1 = .ok s) ∧ Pushes m (step m).2 := by
  have decoded : Instruction.decode? w = some (.call (target w)) :=
    Instruction.decode?_eq_some_iff.mpr ⟨call, rfl⟩
  have below : (m.dropLog.fetched w).cpu.sp < 16 := room
  rw [step_of_word fetches.running fetches.word, execute_ofWord decoded]
  simp only [Instruction.execute, onCpu_apply,
    Cpu.call_of_room (c := (m.dropLog.fetched w).cpu) nonneg below]
  refine ⟨⟨_, rfl⟩, room, rfl, ?_, ?_⟩
  · intro k same
    have here : m.cpu.sp.toNat = k.val := by omega
    exact (Vector.getElem_set (by omega) k.isLt).trans (if_pos here)
  · intro k other
    have apart : m.cpu.sp.toNat ≠ k.val := by omega
    exact Vector.getElem_set_ne (by omega) k.isLt apart

/-- A call without room on the stack fails and leaves the stack alone. -/
theorem step_of_call_full (fetches : m.Fetches w) (call : (group w).val = 0x2)
    (full : m.cpu.sp = 16) : KeepsStack m (step m).2 := by
  have decoded : Instruction.decode? w = some (.call (target w)) :=
    Instruction.decode?_eq_some_iff.mpr ⟨call, rfl⟩
  have full' : (m.dropLog.fetched w).cpu.sp = 16 := full
  rw [step_of_word fetches.running fetches.word, execute_ofWord decoded]
  simp only [Instruction.execute, onCpu_apply, Cpu.call_of_full full']
  exact ⟨rfl, fun _ => rfl⟩

/-- A return with something on the stack succeeds and pops it. -/
theorem step_of_return (fetches : m.Fetches w) (ret : (group w).val = 0x0 ∧ (low w).val = 0xE)
    (positive : 0 < m.cpu.sp) (le : m.cpu.sp ≤ 16) :
    (∃ s, (step m).1 = .ok s) ∧ Pops m (step m).2 := by
  have decoded : Instruction.decode? w = some .ret := Instruction.decode?_eq_some_iff.mpr ret
  have positive' : 0 < (m.dropLog.fetched w).cpu.sp := positive
  rw [step_of_word fetches.running fetches.word, execute_ofWord decoded]
  simp only [Instruction.execute, onCpu_apply, Cpu.ret_of_pos positive' le]
  refine ⟨⟨_, rfl⟩, rfl, ?_, fun _ => rfl⟩
  intro k top
  have here : (⟨(m.cpu.sp - 1).toNat, by omega⟩ : Fin 16) = k := Fin.ext (by simp only; omega)
  exact congrArg m.cpu.stack.get here

/-- A return with nothing on the stack fails and leaves it alone. -/
theorem step_of_return_empty (fetches : m.Fetches w)
    (ret : (group w).val = 0x0 ∧ (low w).val = 0xE) (empty : m.cpu.sp = 0) :
    KeepsStack m (step m).2 := by
  have decoded : Instruction.decode? w = some .ret := Instruction.decode?_eq_some_iff.mpr ret
  have empty' : (m.dropLog.fetched w).cpu.sp = 0 := empty
  rw [step_of_word fetches.running fetches.word, execute_ofWord decoded]
  simp only [Instruction.execute, onCpu_apply, Cpu.ret_of_zero empty']
  exact ⟨rfl, fun _ => rfl⟩

/-- A step leaves the stack as it is, or it is a call with room for one more address, or a return to
an address that is there. -/
theorem step_stack_cases (nonneg : 0 ≤ m.cpu.sp) (le : m.cpu.sp ≤ 16) :
    KeepsStack m (step m).2 ∨
      (∃ w, m.Fetches w ∧ (group w).val = 0x2 ∧ Pushes m (step m).2) ∨
      ∃ w s, m.Fetches w ∧ (group w).val = 0x0 ∧ (low w).val = 0xE ∧ (step m).1 = .ok s ∧
        Pops m (step m).2 := by
  -- Words that do not touch the stack pointer leave the stack alone; the others are calls and
  -- returns.
  by_cases touched : ∃ w, m.Fetches w ∧ m.Touches w .stackPointer
  · obtain ⟨w, fetches, call | ret⟩ := touched
    · by_cases full : m.cpu.sp = 16
      · exact .inl (step_of_call_full fetches call full)
      · have pushes := (step_of_call fetches call nonneg (by omega)).2
        exact .inr (.inl ⟨w, fetches, call, pushes⟩)
    · by_cases empty : m.cpu.sp = 0
      · exact .inl (step_of_return_empty fetches ret empty)
      · obtain ⟨⟨s, success⟩, pops⟩ := step_of_return fetches ret (by omega) le
        exact .inr (.inr ⟨w, s, fetches, ret.1, ret.2, success, pops⟩)
  · have kept := within_step nonneg
    refine .inl ⟨kept .stackPointer ?_, ?_⟩
    · rintro (mark | pointer)
      · cases mark
      · exact touched pointer
    · intro k
      apply kept (.slot k)
      rintro (mark | ⟨w, fetches, call, _⟩)
      · cases mark
      · exact touched ⟨w, fetches, .inl call⟩

/-! ### Runs -/

/-- The address behind the call of a caller is on the stack, on top of what the caller had there. -/
structure Awaits (caller m : Machine) : Prop where
  deeper : caller.cpu.sp < m.cpu.sp
  le : m.cpu.sp ≤ 16
  address : ∀ k : Fin 16, (k.val : Int) = caller.cpu.sp →
    m.cpu.stack.get k = (caller.cpu.pc + 2) % 65536
  below : ∀ k : Fin 16, (k.val : Int) < caller.cpu.sp →
    m.cpu.stack.get k = caller.cpu.stack.get k

/-- An event is a return that succeeds and goes behind the call of a caller, with the stack as the
caller had it. -/
structure ReturnsTo (caller m : Machine) (e : Event) : Prop where
  isStep : e = .action .step
  word : ∃ w, m.Fetches w ∧ (group w).val = 0x0 ∧ (low w).val = 0xE
  success : ∃ s, (step m).1 = .ok s
  pc : (m.undergo e).cpu.pc = (caller.cpu.pc + 2) % 65536
  below : ∀ k : Fin 16, (k.val : Int) < caller.cpu.sp →
    (m.undergo e).cpu.stack.get k = caller.cpu.stack.get k

variable {caller : Machine}

/-- Nothing matters to a return that is awaited but the slots up to its own. -/
theorem Awaits.of_same_slots {m' : Machine} (h : Awaits caller m)
    (deeper : caller.cpu.sp < m'.cpu.sp) (le : m'.cpu.sp ≤ 16)
    (same : ∀ k : Fin 16, (k.val : Int) ≤ caller.cpu.sp →
      m'.cpu.stack.get k = m.cpu.stack.get k) : Awaits caller m' where
  deeper := deeper
  le := le
  address := by
    intro k here
    exact (same k (Int.le_of_eq here)).trans (h.address k here)
  below := by
    intro k under
    exact (same k (Int.le_of_lt under)).trans (h.below k under)

/-- A call goes on waiting for its return while nothing happens to the stack. -/
theorem Awaits.of_keepsStack {m' : Machine} (h : Awaits caller m) (kept : KeepsStack m m') :
    Awaits caller m' :=
  h.of_same_slots (kept.sp ▸ h.deeper) (kept.sp ▸ h.le) fun k _ => kept.slots k

/-- While a return is awaited, an event other than a reset is that return, or the return is still
awaited. -/
theorem Awaits.undergo (h : Awaits caller m) (nonneg : 0 ≤ caller.cpu.sp) {e : Event}
    (noReset : e ≠ .action .reset) :
    (m.undergo e).cpu.sp = caller.cpu.sp ∧ ReturnsTo caller m e ∨ Awaits caller (m.undergo e) := by
  have deeper := h.deeper
  have le := h.le
  by_cases isStep : e = .action .step
  · subst isStep
    change (step m).2.cpu.sp = caller.cpu.sp ∧ _ ∨ Awaits caller (step m).2
    rcases step_stack_cases (m := m) (by omega) le with
      kept | ⟨w, _, _, pushes⟩ | ⟨w, s, fetches, g, l, success, pops⟩
    · exact .inr (h.of_keepsStack kept)
    · -- A deeper call fills a slot above the one that is awaited.
      have sp := pushes.sp
      have room := pushes.room
      refine .inr (h.of_same_slots (by omega) (by omega) ?_)
      intro k under
      exact pushes.others k (by omega)
    · have sp := pops.sp
      by_cases back : m.cpu.sp - 1 = caller.cpu.sp
      · -- The return takes off the slot above those of the caller: the one that its call filled.
        have slot : (caller.cpu.sp.toNat : Int) = caller.cpu.sp := by omega
        let top : Fin 16 := ⟨caller.cpu.sp.toNat, by omega⟩
        have address := (pops.pc top (by simp only [top]; omega)).trans (h.address top slot)
        refine .inl ⟨sp.trans back, rfl, ⟨w, fetches, g, l⟩, ⟨s, success⟩, address, ?_⟩
        intro k under
        exact (pops.slots k).trans (h.below k under)
      · exact .inr (h.of_same_slots (by omega) (by omega) fun k _ => pops.slots k)
  · obtain ⟨⟨delay, sound, aside⟩, _⟩ := undergo_aside isStep noReset
    refine .inr (h.of_keepsStack ⟨?_, ?_⟩)
    · rw [aside]
    · intro k
      rw [aside]

/-- A return is awaited as long as the stack pointer has not come back. -/
theorem Awaits.undergoAll (h : Awaits caller m) (nonneg : 0 ≤ caller.cpu.sp) {events : List Event}
    (noReset : ∀ e ∈ events, e ≠ .action .reset)
    (away : ∀ earlier, earlier <+: events → (m.undergoAll earlier).cpu.sp ≠ caller.cpu.sp) :
    Awaits caller (m.undergoAll events) := by
  induction events generalizing m with
  | nil => exact h
  | cons e events ih =>
      have first : Awaits caller (m.undergo e) := by
        rcases h.undergo nonneg (noReset e List.mem_cons_self) with ⟨back, _⟩ | still
        · exact absurd back (away [e] ⟨events, rfl⟩)
        · exact still
      apply ih first
      · intro e' later
        exact noReset e' (List.mem_cons_of_mem e later)
      · rintro earlier ⟨rest, split⟩
        exact away (e :: earlier) ⟨rest, congrArg (e :: ·) split⟩

/-- A call puts the address behind it on the stack. -/
theorem awaits_of_pushes {m' : Machine} (pushes : Pushes caller m') : Awaits caller m' where
  deeper := by
    have sp := pushes.sp
    omega
  le := by
    have sp := pushes.sp
    have room := pushes.room
    omega
  address := pushes.top
  below := by
    intro k under
    exact pushes.others k (Int.ne_of_lt under)

/-- A call with room on the stack succeeds. Whatever happens then, but for a reset, the address
behind the call stays on the stack, on top of what was there before it, as long as the stack pointer
has not come back; and it comes back by a return that goes behind the call. -/
theorem call_returns_behind (reachable : m.Reachable) (fetches : m.Fetches w)
    (call : (group w).val = 0x2) (room : m.cpu.sp < 16) :
    (∃ s, (step m).1 = .ok s) ∧
      ∀ events : List Event, (∀ e ∈ events, e ≠ .action .reset) →
        (∀ earlier, earlier <+: events → ((step m).2.undergoAll earlier).cpu.sp ≠ m.cpu.sp) →
        Awaits m ((step m).2.undergoAll events) ∧
          ∀ e, e ≠ .action .reset →
            (((step m).2.undergoAll events).undergo e).cpu.sp = m.cpu.sp →
            ReturnsTo m ((step m).2.undergoAll events) e := by
  have nonneg := reachable.sound.bounded.sp_nonneg
  obtain ⟨success, pushes⟩ := step_of_call fetches call nonneg room
  refine ⟨success, ?_⟩
  intro events noReset away
  have awaits := (awaits_of_pushes pushes).undergoAll nonneg noReset away
  refine ⟨awaits, ?_⟩
  intro e other back
  rcases awaits.undergo nonneg other with ⟨_, returns⟩ | still
  · exact returns
  · have deeper := still.deeper
    omega

/-- A machine whose memory is an image can come about. -/
theorem reachable_ofImage (image : List UInt8) (nonempty : 0 < image.length) :
    (ofImage image nonempty).Reachable := by
  let memory : Ram := ⟨image.toArray, by simpa using nonempty, false⟩
  let start := create Bus.empty ⟨8, 1, Cells.zero 8, by decide, by decide, rfl⟩ (.ofList []) 0 0
  have wired : ((start.undergo (.attach (.ram memory))).undergo
      (.register 0 ((memory.size : Int) - 1) 0)).Reachable :=
    .undergo _ (.undergo _ (.create _ _ _ _))
  have bus : ((start.undergo (.attach (.ram memory))).undergo
      (.register 0 ((memory.size : Int) - 1) 0)) = ofImage image nonempty := by
    change { start with bus := (Bus.register 0 _ 0 (Bus.empty.attach (.ram memory))).2 } = _
    rw [Bus.register_single]
    rfl
  rwa [bus] at wired

/-- A machine whose program calls a routine that calls another. -/
def nesting : Machine :=
  ofImage [0x20, 0x06, 0x10, 0x02, 0x00, 0xEE, 0x20, 0x04, 0x00, 0xEE] (by decide)

/-- Once the inner routine has returned, the return address of the outer one is still there, and the
next step goes to it. -/
theorem nesting_returns_behind :
    Awaits nesting ((step nesting).2.undergoAll [.action .step, .action .step]) ∧
      ReturnsTo nesting ((step nesting).2.undergoAll [.action .step, .action .step])
        (.action .step) := by
  have reachable : nesting.Reachable := reachable_ofImage _ _
  have fetches : nesting.Fetches 0x2006 := ⟨rfl, rfl⟩
  obtain ⟨_, returned⟩ := call_returns_behind reachable fetches rfl (by decide)
  have away : ∀ earlier, earlier <+: [Event.action .step, .action .step] →
      ((step nesting).2.undergoAll earlier).cpu.sp ≠ nesting.cpu.sp := by
    intro earlier early
    simp only [List.prefix_cons_iff, List.prefix_nil] at early
    rcases early with rfl | ⟨_, rfl, rfl | ⟨_, rfl, rfl⟩⟩
    · exact show (1 : Int) ≠ 0 by decide
    · exact show (2 : Int) ≠ 0 by decide
    · exact show (1 : Int) ≠ 0 by decide
  obtain ⟨awaits, returns⟩ := returned [.action .step, .action .step] (by decide) away
  exact ⟨awaits, returns (.action .step) (by decide) rfl⟩

end Chip8.Machine
