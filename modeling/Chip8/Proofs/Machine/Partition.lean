import Chip8.Proofs.Listing
import Chip8.Proofs.Machine.Dependence
import Chip8.Proofs.Machine.Request
import Chip8.Proofs.Memory.Mount

/-!
How memory is divided among devices cannot be noticed.

Two machines are the *same outside* when they differ at most in how the addresses of their buses are
laid out over memories. Every request is answered alike by machines that are the same outside, and
leaves them so (`respects_serve`); whatever is requested of them one after the other, an observer
sees the same (`SameOutside.observe_eq`). Mounting one memory or several in its place makes such
machines (`partition_invisible`).
-/

namespace Chip8

/-! ### Requests to the bus -/

namespace Bus

/-- Two buses that map the same addresses, hold the same bytes there and have the same log. -/
abbrev SameBytes : Bus → Bus → Prop := Twins fun _ => True

variable {b c : Bus}

/-- The mapped addresses end where they do in the other partition. -/
theorem SameBytes.mappedEnd (h : SameBytes b c) : b.mappedEnd = c.mappedEnd :=
  mappedEnd_congr h.backed h.backed' h.maps

theorem respects_read (a : Int) : (Bus.read a).Respects SameBytes :=
  fun _ _ h => h.read a fun _ _ _ => trivial

theorem respects_write (a v : Int) : (Bus.write a v).Respects SameBytes :=
  fun _ _ h => h.write a v

theorem respects_writeFrom (a : Int) (values : List Int) :
    (Bus.writeFrom a values).Respects SameBytes :=
  writeFrom_of_closed Attempt.closed_respects (fun v _ a => respects_write a v) a

theorem respects_dropLog : (Attempt.update dropLog).Respects SameBytes :=
  fun _ _ h => ⟨rfl, { h with log := rfl }⟩

theorem respects_takeLog : takeLog.Respects SameBytes :=
  fun _ _ h => ⟨congrArg Except.ok h.log, { h with log := rfl }⟩

/-- Clearing leaves zero at every mapped address. -/
theorem respects_clear : (Attempt.update clear).Respects SameBytes := by
  intro b c h
  refine ⟨rfl, ?_⟩
  exact {
    log := h.log
    maps := h.maps
    backed := h.backed.of_shape (shape_clear b)
    backed' := h.backed'.of_shape (shape_clear c)
    separate := h.separate.of_regions rfl
    separate' := h.separate'.of_regions rfl
    agree := fun a _ => by
      simp only [Attempt.update_apply, peek?_clear h.backed, peek?_clear h.backed', h.maps a] }

theorem respects_load (image : List UInt8) (start : Int) :
    (Rom.load image start).Respects SameBytes := by
  refine Attempt.Respects.bind (x := Attempt.view Bus.mappedEnd) ?_ fun mappedEnd => ?_
  · intro b c h
    exact ⟨congrArg Except.ok h.mappedEnd, h⟩
  · by_cases large : start + image.length > mappedEnd
    · rw [if_pos large]
      exact fun _ _ h => ⟨rfl, h⟩
    · rw [if_neg large]
      refine (respects_writeFrom _ _).bind fun _ => ?_
      exact respects_dropLog.bind fun _ => Attempt.closed_respects.pure _

theorem respects_loadFont (base : Int) : (Font.load base).Respects SameBytes :=
  (respects_writeFrom _ _).bind fun _ => respects_dropLog

end Bus

namespace Machine

/-! ### Requests to the machine -/

/-- Two machines that differ at most in the sources of their random values, which give the same
values, and in how the addresses of their buses are laid out. -/
structure SameOutside (m n : Machine) : Prop extends Alike (fun _ => True) m n where
  programStart : m.programStart = n.programStart
  reports : m.reports = n.reports

variable {m n : Machine} {α : Type}

theorem respects_onBus {act : Attempt Bus α} (h : act.Respects Bus.SameBytes) :
    (onBus act).Respects SameOutside := by
  intro m n same
  obtain ⟨answers, after⟩ := h m.bus n.bus same.bus
  rw [onBus_apply, onBus_apply]
  exact ⟨answers, { same with bus := after }⟩

theorem respects_onKeypad (f : Keypad → Except Fault Keypad) :
    (onKeypad f).Respects SameOutside := by
  intro m n same
  rw [onKeypad, onKeypad, ← same.keypad]
  cases f m.keypad with
  | ok keypad => exact ⟨rfl, { same with keypad := rfl }⟩
  | error e => exact ⟨rfl, same⟩

/-- What is put together from accesses cannot tell how memory is divided. -/
theorem respects_composed {x : Attempt Machine α} (h : Composed x) : x.Respects SameOutside := by
  intro m n same
  obtain ⟨answers, after⟩ := h.follows _ m n same.toAlike fun _ _ _ => trivial
  have start (m : Machine) : (x m).2.programStart = m.programStart :=
    congrArg (·.2.1) (h.wiring m)
  exact ⟨answers, { after with
    programStart := by rw [start, start, same.programStart]
    reports := by rw [h.reports, h.reports, same.reports] }⟩

theorem respects_execute (o : Operation) : o.execute.Respects SameOutside := by
  unfold Operation.execute
  cases o.instruction? with
  | some i => exact respects_composed (composed_execute i)
  | none =>
      intro m n same
      refine ⟨rfl, { same with reports := ?_ }⟩
      simp only [Attempt.update_apply, same.reports, same.cpu]

theorem respects_fetchAndExecute : fetchAndExecute.Respects SameOutside := by
  refine (respects_composed composed_fetch).bind fun w => ?_
  exact (respects_execute _).bind fun _ => Attempt.closed_respects.pure _

theorem SameOutside.dropLog (same : SameOutside m n) : SameOutside m.dropLog n.dropLog :=
  { same with bus := { same.bus with log := rfl } }

theorem SameOutside.halt (same : SameOutside m n) : SameOutside m.halt n.halt :=
  { same with cpu := by simp only [Machine.halt, same.cpu] }

theorem respects_complete (address : Int) (o : Operation) :
    (complete address o).Respects SameOutside := by
  intro m n same
  constructor
  · simp only [complete, same.cpu, same.cycles, same.bus.log]
  · exact { same.dropLog with cycles := congrArg (· + o.cycles) same.cycles }

/-- A step cannot tell how memory is divided. -/
theorem respects_step : step.Respects SameOutside := by
  intro m n same
  cases running : m.cpu.halted with
  | true =>
      have running' : n.cpu.halted = true := same.cpu ▸ running
      rw [step_of_halted running, step_of_halted running', same.cpu]
      exact ⟨rfl, same.dropLog⟩
  | false =>
      have running' : n.cpu.halted = false := same.cpu ▸ running
      -- Both machines execute alike; what remains is counting, or halting.
      have executed := respects_fetchAndExecute _ _ same.dropLog
      rw [step_of_running running, step_of_running running', same.cpu]
      cases first : fetchAndExecute m.dropLog with
      | mk result m' =>
          cases second : fetchAndExecute n.dropLog with
          | mk result' n' =>
              rw [first, second] at executed
              obtain ⟨rfl, after⟩ := executed
              cases result with
              | ok o => exact respects_complete n.cpu.pc o m' n' after
              | error e =>
                  refine ⟨rfl, ?_⟩
                  by_cases halts : e.halts = true
                  · simp only [if_pos halts]
                    exact after.halt
                  · simp only [if_neg halts]
                    exact after

theorem respects_map {β : Type} {x : Attempt Machine α} (h : x.Respects SameOutside) (f : α → β) :
    (f <$> x).Respects SameOutside :=
  h.bind fun a => Attempt.closed_respects.pure (f a)

/-- No action can tell how memory is divided. -/
theorem respects_attempt (a : Action) : a.attempt.Respects SameOutside := by
  cases a with
  | step => exact respects_map respects_step _
  | tick =>
      refine respects_map (fun m n same => ⟨rfl, { same with cpu := ?_ }⟩) _
      simp only [Attempt.update_apply, tick, same.cpu]
  | reset =>
      refine respects_map (fun m n same => ⟨rfl, { same with cpu := ?_, cycles := rfl }⟩) _
      simp only [Attempt.update_apply, reset, same.programStart]
  | press key => exact respects_map (respects_onKeypad _) _
  | release key => exact respects_map (respects_onKeypad _) _
  | releaseAll => exact respects_map (respects_onKeypad _) _
  | read a => exact respects_map (respects_onBus (Bus.respects_read a)) _
  | write a v => exact respects_map (respects_onBus (Bus.respects_write a v)) _
  | clear => exact respects_map (respects_onBus Bus.respects_clear) _
  | takeLog => exact respects_map (respects_onBus Bus.respects_takeLog) _
  | load image start => exact respects_map (respects_onBus (Bus.respects_load image start)) _
  | loadFont base => exact respects_map (respects_onBus (Bus.respects_loadFont base)) _

/-- A look shows the same in machines that are the same outside. -/
theorem SameOutside.answer_eq (same : SameOutside m n) (q : Query) : q.answer m = q.answer n := by
  have peeks (a : Int) : m.bus.peek? a = n.bus.peek? a := same.bus.agree a trivial
  cases q with
  | peek a => simp only [Query.answer, peeks]
  | isPressed key => simp only [Query.answer, same.keypad]
  | mappedEnd => simp only [Query.answer, Bus.SameBytes.mappedEnd same.bus]
  | list start length =>
      simp only [Query.answer, Listing.lines?_congr peeks (Bus.SameBytes.mappedEnd same.bus)]

/-- A request does not tell apart machines that are the same outside. -/
theorem respects_serve (r : Request) : (serve r).Respects SameOutside := by
  cases r with
  | act a => exact respects_attempt a
  | look q => exact fun _ _ same => ⟨same.answer_eq q, same⟩

/-- No requests tell apart machines that are the same outside. -/
theorem SameOutside.observe_eq (same : SameOutside m n) (requests : List Request) :
    observe m requests = observe n requests := by
  induction requests generalizing m n with
  | nil => rfl
  | cons r requests ih =>
      obtain ⟨answers, after⟩ := respects_serve r m n same
      simp only [observe, answers, after.cpu, after.cycles, after.display, after.reports, ih after]

/-- Dividing memory cannot be noticed. Fresh memories that stand in a row, mounted in any order, and
one fresh memory of their size altogether make machines that answer every request alike and show
the same registers, picture and reports after each, whatever is requested one after the other. -/
theorem partition_invisible {memories : List Ram} {whole : Ram} {order : List (Nat × Ram)}
    (fresh : ∀ m ∈ memories, m.Fresh) (fresh' : whole.Fresh)
    (size : (memories.map Ram.size).sum = whole.size) (perm : order.Perm (Bus.inRow 0 memories))
    {random random' : RandomSource} (values : ∀ k, random.value k = random'.value k)
    (display : Display) (fontAddress programStart : Int) :
    ∃ split one, Bus.mount order Bus.empty = (.ok (), split) ∧
      Bus.mount [(0, whole)] Bus.empty = (.ok (), one) ∧
      ∀ requests, observe (create split display random fontAddress programStart) requests =
        observe (create one display random' fontAddress programStart) requests := by
  obtain ⟨split, one, mounted, mounted', twins⟩ :=
    Bus.twins_of_partition fresh fresh' size perm
  have same : SameOutside (create split display random fontAddress programStart)
      (create one display random' fontAddress programStart) :=
    { cpu := rfl, cycles := rfl, display := rfl, keypad := rfl, random := values,
      fontAddress := rfl, bus := twins, programStart := rfl, reports := rfl }
  exact ⟨split, one, mounted, mounted', same.observe_eq⟩

/-- Requests that load, fetch and list an instruction at the addresses 1 and 2 and look at address
3. -/
def acrossBorder : List Request :=
  [.act (.load [0x60, 0x2A] 1), .act .step, .look (.list 0 9), .look (.peek 3)]

/-- Three addresses over a memory of two cells and one of a single cell, the upper mounted first: an
instruction is stored and fetched across the border between them as it is over one memory. -/
theorem border_invisible : ∃ split one,
    Bus.mount [(2, .blank 0), (0, .blank 1)] Bus.empty = (.ok (), split) ∧
      Bus.mount [(0, .blank 2)] Bus.empty = (.ok (), one) ∧
      observe (create split ⟨8, 1, Cells.zero 8, by decide, by decide, rfl⟩ (.ofList []) 0 1)
          acrossBorder =
        observe (create one ⟨8, 1, Cells.zero 8, by decide, by decide, rfl⟩ (.ofList []) 0 1)
          acrossBorder := by
  have fresh : ∀ m ∈ [Ram.blank 1, Ram.blank 0], m.Fresh := by simp [Ram.fresh_blank]
  have perm : List.Perm [(2, Ram.blank 0), (0, Ram.blank 1)]
      (Bus.inRow 0 [Ram.blank 1, Ram.blank 0]) := .swap _ _ _
  obtain ⟨split, one, mounted, mounted', same⟩ := partition_invisible fresh (Ram.fresh_blank 2) rfl
    perm (fun _ => rfl) ⟨8, 1, Cells.zero 8, by decide, by decide, rfl⟩ 0 1
  exact ⟨split, one, mounted, mounted', same acrossBorder⟩

end Machine

end Chip8
