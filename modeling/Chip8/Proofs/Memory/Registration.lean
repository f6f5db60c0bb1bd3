import Chip8.Proofs.Attempt
import Chip8.Proofs.Memory.Transfer

/-!
What registration makes of a bus, and accesses leave of it.

A bus is *fitted* when each of its regions leads to a device that has one cell for each address of
the region, if it has cells. Registration compares the length of a region with the size of its
device, so it makes no other regions (`Fitted.register`), and a bus on which only memories were put
is backed (`OfRams.backed`): an offset never falls outside its memory. No access changes the shape of
a bus (`shape_read`, `shape_write`, `keeps_shape_writeFrom`, `shape_clear`).
-/

namespace Chip8

@[simp] theorem Device.store?_clear (d : Device) : d.clear.store? = d.store? := by
  cases d with
  | ram r => simp [clear, store?, Ram.clear, Ram.label, Ram.size]
  | display s => simp [clear, store?, Display.clear, Display.size]
  | ramp => rfl

namespace Bus

/-- A bus on which only memories were put, in any state that its operations lead to. -/
inductive OfRams : Bus → Prop where
  | empty : OfRams Bus.empty
  | attach {b : Bus} (m : Ram) : OfRams b → OfRams (b.attach (.ram m))
  | register {b : Bus} (first last : Int) (device : Nat) :
      OfRams b → OfRams (Bus.register first last device b).2
  | read {b : Bus} (a : Int) : OfRams b → OfRams (Bus.read a b).2
  | write {b : Bus} (a v : Int) : OfRams b → OfRams (Bus.write a v b).2
  | clear {b : Bus} : OfRams b → OfRams b.clear
  | takeLog {b : Bus} : OfRams b → OfRams (Bus.takeLog b).2

variable {b : Bus}

/-! ### Accesses keep the shape -/

@[simp] theorem shape_read (a : Int) (b : Bus) : (Bus.read a b).2.shape = b.shape := by
  unfold Bus.read
  cases b.peek? a <;> rfl

@[simp] theorem shape_write (a v : Int) (b : Bus) : (Bus.write a v b).2.shape = b.shape := by
  unfold Bus.write
  cases b.writeFault? a v with
  | some e => rfl
  | none => exact shape_store b a v

/-- What holds of each single write holds of writing at consecutive addresses. -/
theorem writeFrom_of_closed {Q : {α : Type} → Attempt Bus α → Prop} (closed : Attempt.Closed Q)
    {values : List Int} (write : ∀ v ∈ values, ∀ a, Q (Bus.write a v)) (a : Int) :
    Q (Bus.writeFrom a values) := by
  induction values generalizing a with
  | nil => exact closed.pure ()
  | cons v values ih =>
      refine closed.bind (write v List.mem_cons_self a) fun _ => ?_
      exact ih (fun v' later => write v' (List.mem_cons_of_mem v later)) (a + 1)

/-- Writing at consecutive addresses keeps what every single write keeps. -/
theorem keeps_writeFrom {P : Bus → Prop} (each : ∀ a v, (Bus.write a v).Keeps P) (a : Int)
    (vs : List Int) : (Bus.writeFrom a vs).Keeps P :=
  writeFrom_of_closed Attempt.closed_keeps (fun v _ a => each a v) a

/-- Writing keeps the shape that a bus has. -/
theorem keeps_shape_writeFrom (shape : List Region × Array Device) (a : Int) (vs : List Int) :
    (Bus.writeFrom a vs).Keeps fun b => b.shape = shape := by
  apply keeps_writeFrom
  intro a v b same
  rw [shape_write, same]

@[simp] theorem shape_clear (b : Bus) : b.clear.shape = b.shape := by
  obtain ⟨devices, regions, log⟩ := b
  have cleared (rs : List Region) (ds : Array Device) :
      (rs.foldl (fun ds r => ds.modify r.device Device.clear) ds).map Device.clear =
        ds.map Device.clear := by
    induction rs generalizing ds with
    | nil => rfl
    | cons r rs ih => exact (ih _).trans (map_clear_modify ds r.device Device.clear_clear)
  simp only [clear, shape, cleared]

/-! ### Registered regions are as long as their devices -/

def AllRams (b : Bus) : Prop := ∀ d ∈ b.devices, ∃ m, d = .ram m

/-- Whether all devices are memories is a matter of the shape. -/
theorem AllRams.of_shape {b' : Bus} (rams : b.AllRams) (h : b'.shape = b.shape) : b'.AllRams := by
  have devices : b'.devices.map Device.clear = b.devices.map Device.clear := congrArg Prod.snd h
  intro d mem
  have cleared : d.clear ∈ b.devices.map Device.clear := devices ▸ Array.mem_map_of_mem mem
  obtain ⟨d', mem', clear⟩ := Array.mem_map.mp cleared
  obtain ⟨m, rfl⟩ := rams d' mem'
  obtain ⟨m', rfl, _⟩ := Device.exists_ram_of_clear_eq clear
  exact ⟨m', rfl⟩

/-- Every region leads to a device that has one cell for each of its addresses, if it has cells. -/
def Fitted (b : Bus) : Prop :=
  ∀ r ∈ b.regions, ∃ d, b.devices[r.device]? = some d ∧
    ∀ store size, d.store? = some (store, size) → r.first + size = r.last + 1

theorem fitted_empty : Bus.empty.Fitted := by
  intro r mem
  cases mem

theorem Fitted.attach (h : b.Fitted) (d : Device) : (b.attach d).Fitted := by
  intro r mem
  obtain ⟨d', device, size⟩ := h r mem
  have inside : r.device < b.devices.size := (Array.getElem?_eq_some_iff.mp device).1
  refine ⟨d', ?_, size⟩
  rw [Bus.attach, Array.getElem?_push_lt inside, ← Array.getElem?_eq_getElem inside, device]

/-- Registration refuses a region that is not as long as its device. -/
theorem Fitted.register (h : b.Fitted) (first last : Int) (device : Nat) :
    (Bus.register first last device b).2.Fitted := by
  cases fault : b.registerFault? first last device with
  | some e => simpa [Bus.register, fault] using h
  | none =>
      simp only [Bus.register, fault]
      intro r mem
      rcases List.mem_append.mp mem with old | new
      · exact h r old
      · rw [List.mem_singleton] at new
        subst new
        by_cases range : 0 ≤ first ∧ first ≤ last
        · cases found : b.devices[device]? with
          | none => simp [registerFault?, range, found] at fault
          | some d =>
              refine ⟨d, rfl, ?_⟩
              intro store size cells
              simp only [registerFault?, not_true, if_false, range, and_self, found, cells,
                ite_eq_left_iff, reduceCtorEq, imp_false, Decidable.not_not] at fault
              simp only
              omega
        · simp [registerFault?, range] at fault

/-- Whether a bus is fitted is a matter of its shape. -/
theorem Fitted.of_shape {b' : Bus} (h : b.Fitted) (shape : b'.shape = b.shape) : b'.Fitted := by
  obtain ⟨regions, devices⟩ := Prod.mk.injEq _ _ _ _ ▸ shape
  intro r mem
  obtain ⟨d, device, size⟩ := h r (regions ▸ mem)
  have cleared := congrArg (fun ds => ds[r.device]?) devices
  simp only [Array.getElem?_map, device, Option.map_some] at cleared
  obtain ⟨d', device', clear⟩ := Option.map_eq_some_iff.mp cleared
  refine ⟨d', device', ?_⟩
  rwa [← Device.store?_clear, clear, Device.store?_clear]

/-- A bus of memories is fitted. -/
theorem Backed.fitted (hb : b.Backed) : b.Fitted := by
  intro r mem
  obtain ⟨m, device, size⟩ := hb r mem
  refine ⟨.ram m, device, ?_⟩
  intro store cells found
  cases found
  exact size

/-- A fitted bus is backed where every device is a memory. -/
theorem Fitted.backed (h : b.Fitted) (rams : b.AllRams) : b.Backed := by
  intro r mem
  obtain ⟨d, device, size⟩ := h r mem
  obtain ⟨m, rfl⟩ := rams d (Array.mem_of_getElem? device)
  exact ⟨m, device, size m.label m.size rfl⟩

/-- Where only memories were put on a bus, every device is one and every region has its cells. -/
theorem OfRams.allRams_and_fitted (h : b.OfRams) : b.AllRams ∧ b.Fitted := by
  induction h with
  | empty => exact ⟨by simp [AllRams, Bus.empty], fitted_empty⟩
  | attach m _ ih =>
      refine ⟨?_, ih.2.attach _⟩
      intro d mem
      rcases Array.mem_push.mp mem with old | rfl
      · exact ih.1 d old
      · exact ⟨m, rfl⟩
  | @register b first last device _ ih =>
      refine ⟨?_, ih.2.register first last device⟩
      cases fault : b.registerFault? first last device <;>
        simpa [Bus.register, fault, AllRams] using ih.1
  | @read b a _ ih => exact ⟨ih.1.of_shape (shape_read a b), ih.2.of_shape (shape_read a b)⟩
  | @write b a v _ ih =>
      exact ⟨ih.1.of_shape (shape_write a v b), ih.2.of_shape (shape_write a v b)⟩
  | @clear b _ ih => exact ⟨ih.1.of_shape (shape_clear b), ih.2.of_shape (shape_clear b)⟩
  | takeLog _ ih => exact ih

/-- On a bus of memories every region leads to a memory with one cell for each of its addresses. -/
theorem OfRams.backed (h : b.OfRams) : b.Backed :=
  h.allRams_and_fitted.2.backed h.allRams_and_fitted.1

/-- Writing to a bus of memories leaves it one. -/
theorem OfRams.keeps_writeFrom (a : Int) (vs : List Int) : (Bus.writeFrom a vs).Keeps OfRams := by
  apply Bus.keeps_writeFrom
  intro a v b rams
  exact rams.write a v

/-! ### A single memory -/

/-- The bus on which one memory is registered from address 0 on. -/
def single (memory : Ram) : Bus := ⟨#[.ram memory], [⟨0, memory.size - 1, 0⟩], #[]⟩

variable {memory : Ram}

theorem register_single (memory : Ram) :
    Bus.register 0 ((memory.size : Int) - 1) 0 (Bus.empty.attach (.ram memory)) =
      (.ok (), single memory) := by
  have positive : 0 < memory.size := memory.nonempty
  have last : ((memory.size : Int) - 1).toNat = memory.size - 1 := by omega
  have fault : (Bus.empty.attach (.ram memory)).registerFault? 0 ((memory.size : Int) - 1) 0 =
      none := by
    have range : (0 : Int) ≤ 0 ∧ 0 ≤ (memory.size : Int) - 1 := by omega
    have length : (memory.size : Int) = (memory.size : Int) - 1 - 0 + 1 := by omega
    simp only [registerFault?, not_true, if_false, range, and_self, attach, empty]
    simp [Device.store?]
  rw [Bus.register, fault]
  simp [attach, empty, single, last]

theorem ofRams_single (memory : Ram) : (single memory).OfRams := by
  have registered := OfRams.register 0 ((memory.size : Int) - 1) 0 (OfRams.attach memory .empty)
  rwa [register_single] at registered

theorem maps_single {a : Int} : (single memory).Maps a ↔ 0 ≤ a ∧ a < memory.size := by
  have positive : 0 < memory.size := memory.nonempty
  simp only [Maps, single, List.mem_singleton, exists_eq_left, Region.Covers]
  constructor
  · rintro ⟨low, high⟩
    exact ⟨by omega, by omega⟩
  · rintro ⟨low, high⟩
    exact ⟨by omega, by omega⟩

end Bus

end Chip8
