import Chip8.Proofs.Memory.Registration

/-!
Buses with devices of any kind.

Whatever the devices are, an access changes no byte but the one at the location of its address
(`byteAt_write_of_ne`, `byteAt_writeFrom_of_ne`). On a fitted bus a read, and a write of a byte,
fails only where no region covers the address (`Fitted.read_fault`, `Fitted.write_fault`).
-/

namespace Chip8

/-! ### Devices -/

namespace Device

variable {d : Device} {a : Int}

theorem read?_store_ne {a' : Int} (h0 : 0 ≤ a) (ne : a' ≠ a) (v : Int) :
    (d.store a v).read? a' = d.read? a' := by
  cases d with
  | ram r => exact Ram.read?_store_ne h0 ne v
  | display s =>
      by_cases h : 0 ≤ a'
      · have apart : a.toNat ≠ a'.toNat := by omega
        simp [store, read?, Display.store, Display.read?, Cells.read?, Cells.store, h, apart]
      · simp [store, read?, Display.store, Display.read?, Cells.read?, Cells.store, h]
  | ramp => rfl

/-- Whether an offset is one of the cells of a device, if it has cells. -/
def Serves (d : Device) (a : Int) : Prop :=
  0 ≤ a ∧ ∀ store size, d.store? = some (store, size) → a < size

/-- A device answers for each of its cells. -/
theorem Serves.read? (h : d.Serves a) : ∃ byte, d.read? a = .ok byte := by
  obtain ⟨low, inside⟩ := h
  cases d with
  | ram r => exact ⟨_, Ram.read?_of_lt low (inside _ _ rfl)⟩
  | display s =>
      have high : a < s.cells.size := inside _ _ rfl
      have ha : a.toNat < s.cells.size := by omega
      exact ⟨s.cells[a.toNat], by simp [Device.read?, Display.read?, Cells.read?, low, ha]⟩
  | ramp => exact ⟨_, rfl⟩

/-- A device takes a byte at each of its cells. -/
theorem Serves.writeFault? (h : d.Serves a) {v : Int} (byte : 0 ≤ v ∧ v ≤ 255) :
    d.writeFault? a v = none := by
  obtain ⟨low, inside⟩ := h
  cases d with
  | ram r =>
      rw [Device.writeFault?, Ram.writeFault?_of_lt low (inside _ _ rfl), if_pos byte]
  | display s =>
      have covers : s.cells.Covers a := ⟨low, inside _ _ rfl⟩
      simp [Device.writeFault?, Display.writeFault?, Cells.writeFault?, covers, byte]
  | ramp => rfl

end Device

namespace Bus

variable {b : Bus} {a v : Int} {l : Location}

/-! ### What an access leaves alone -/

theorem offset_nonneg (h : b.location? a = some l) : 0 ≤ l.offset := by
  obtain ⟨r, _, covers, rfl⟩ := exists_region_of_locate? h
  have low := covers.1
  simp only
  omega

theorem byteAt_store_of_ne (h : b.location? a ≠ some l) (v : Int) :
    (b.store a v).byteAt l = b.byteAt l := by
  by_cases mapped : b.Maps a
  · obtain ⟨l', here⟩ := maps_iff.mp mapped
    simp only [byteAt, devices_store_of_location here, Array.getElem?_modify]
    by_cases device : l'.device = l.device
    · -- The device is the same, so it is the offset that tells the two locations apart.
      have offset : l.offset ≠ l'.offset := by
        intro same
        obtain ⟨d, o⟩ := l
        obtain ⟨d', o'⟩ := l'
        simp only at device same
        rw [here, device, same] at h
        exact h rfl
      rw [if_pos device]
      cases found : b.devices[l.device]? with
      | none => rfl
      | some d => simp only [Option.map_some, Device.read?_store_ne (offset_nonneg here) offset]
    · rw [if_neg device]
  · rw [store_of_not_maps mapped]

theorem byteAt_read (a : Int) (b : Bus) (l : Location) :
    (Bus.read a b).2.byteAt l = b.byteAt l := by
  unfold Bus.read
  cases b.peek? a <;> rfl

/-- A write changes no byte but the one at the location of its address. -/
theorem byteAt_write_of_ne (h : b.location? a ≠ some l) (v : Int) :
    (Bus.write a v b).2.byteAt l = b.byteAt l := by
  unfold Bus.write
  cases b.writeFault? a v with
  | some e => rfl
  | none => exact byteAt_store_of_ne h v

/-- Writing at consecutive addresses changes no byte but those at their locations. -/
theorem byteAt_writeFrom_of_ne {values : List Int}
    (h : ∀ k < values.length, b.location? (a + k) ≠ some l) :
    (Bus.writeFrom a values b).2.byteAt l = b.byteAt l := by
  induction values generalizing a b with
  | nil => rfl
  | cons v values ih =>
      have first : (Bus.write a v b).2.byteAt l = b.byteAt l := by
        apply byteAt_write_of_ne
        simpa using h 0 (by simp)
      have regions : (Bus.write a v b).2.regions = b.regions :=
        congrArg Prod.fst (shape_write a v b)
      rw [Bus.writeFrom, Attempt.bind_apply]
      cases written : Bus.write a v b with
      | mk result b' =>
          rw [written] at first regions
          cases result with
          | error e => exact first
          | ok _ =>
              refine Eq.trans (ih ?_) first
              intro k inside
              have later := h (k + 1) (by simpa using inside)
              have place : a + ((k + 1 : Nat) : Int) = a + 1 + k := by omega
              rwa [location?, regions, ← place]

/-! ### Faults of a fitted bus -/

/-- On a fitted bus an address that some region covers leads to a cell of a device. -/
theorem Fitted.target? (h : b.Fitted) (mapped : b.Maps a) :
    ∃ d l, b.target? a = some (d, l) ∧ d.Serves l.offset := by
  obtain ⟨l, here⟩ := maps_iff.mp mapped
  obtain ⟨r, mem, covers, rfl⟩ := exists_region_of_locate? here
  obtain ⟨d, device, size⟩ := h r mem
  obtain ⟨low, high⟩ := covers
  refine ⟨d, ⟨r.device, a - r.first⟩, ?_, ?_, ?_⟩
  · rw [Bus.target?, here, Option.bind_some, device, Option.map_some]
  · simp only
    omega
  · intro store cells found
    have length := size store cells found
    simp only
    omega

/-- On a fitted bus an address can be looked at unless no region covers it. -/
theorem Fitted.peek_fault (h : b.Fitted) {e : Fault} (fault : b.peek? a = .error e) :
    e = .unmapped a := by
  by_cases mapped : b.Maps a
  · obtain ⟨d, l, target, serves⟩ := h.target? mapped
    obtain ⟨byte, answers⟩ := serves.read?
    simp only [peek?, target, answers] at fault
    cases fault
  · rw [peek?_of_not_maps mapped] at fault
    exact (Except.error.inj fault).symm

/-- A read from a fitted bus fails only where no region covers the address. -/
theorem Fitted.read_fault (h : b.Fitted) {e : Fault} (fault : (Bus.read a b).1 = .error e) :
    e = .unmapped a := by
  unfold Bus.read at fault
  cases peeked : b.peek? a with
  | ok byte =>
      rw [peeked] at fault
      cases fault
  | error e' =>
      rw [peeked] at fault
      cases fault
      exact h.peek_fault peeked

/-- A write of a byte to a fitted bus fails only where no region covers the address. -/
theorem Fitted.write_fault (h : b.Fitted) (byte : 0 ≤ v ∧ v ≤ 255) {e : Fault}
    (fault : (Bus.write a v b).1 = .error e) : e = .unmapped a := by
  unfold Bus.write at fault
  by_cases mapped : b.Maps a
  · obtain ⟨d, l, target, serves⟩ := h.target? mapped
    simp only [Bus.writeFault?, target, serves.writeFault? byte] at fault
    cases fault
  · simp only [writeFault?_of_not_maps mapped] at fault
    exact (Except.error.inj fault).symm

end Bus

end Chip8
