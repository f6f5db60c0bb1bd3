import Chip8.Proofs.Memory.Registration

/-!
Memories that hold zero everywhere: new ones, and those that were cleared.

Clearing a bus clears the memories behind its regions and no others (`byteAt_clear`). So on a backed
bus every mapped address shows zero afterwards (`peek?_clear`).
-/

namespace Chip8

namespace Ram

def Fresh (m : Ram) : Prop := m.cells = Cells.zero m.size

instance (m : Ram) : Decidable m.Fresh := inferInstanceAs (Decidable (_ = _))

/-- A memory of zeros whose addresses go from 0 to a last one. -/
def blank (last : Nat) : Ram := ⟨Cells.zero (last + 1), by simp, false⟩

variable {m : Ram}

@[simp] theorem size_blank (last : Nat) : (blank last).size = last + 1 := by
  simp [blank, size]

theorem fresh_blank (last : Nat) : (blank last).Fresh := by
  simp [Fresh, blank, size]

/-- A memory is made fresh. -/
theorem fresh_of_create? [Host] {size : Int} (h : create? size = .ok m) : m.Fresh := by
  unfold create? at h
  split at h
  · split at h
    · cases h
    · cases h
      simp [Fresh, Ram.size]
  · cases h

theorem fresh_clear (m : Ram) : m.clear.Fresh := by
  simp [Fresh, clear, size, Cells.clear]

theorem Fresh.read? (h : m.Fresh) (a : Int) : (m.read? a).toOption.getD 0 = 0 := by
  by_cases low : 0 ≤ a
  · by_cases high : a < m.size
    · have inside : a.toNat < m.size := by omega
      rw [read?_of_lt low high, h]
      simp [Cells.zero, Except.toOption, inside]
    · have outside : m.cells[a.toNat]? = none := by
        rw [Array.getElem?_eq_none_iff]
        have : m.size = m.cells.size := rfl
        omega
      simp [Ram.read?, Cells.read?, low, outside, Except.toOption]
  · simp [Ram.read?, Cells.read?, low, Except.toOption]

end Ram

namespace Bus

variable {b : Bus}

/-- Clearing a bus clears the devices behind its regions. -/
theorem getElem?_devices_clear (b : Bus) (k : Nat) :
    b.clear.devices[k]? =
      if k ∈ b.regions.map Region.device then b.devices[k]?.map Device.clear
      else b.devices[k]? := by
  obtain ⟨devices, regions, log⟩ := b
  simp only [clear]
  induction regions generalizing devices with
  | nil => simp
  | cons r rs ih =>
      rw [List.foldl_cons, ih, Array.getElem?_modify, List.map_cons]
      by_cases here : r.device = k
      · cases devices[k]? with
        | none => simp [here]
        | some d => simp [here, Device.clear_clear]
      · simp [here, Ne.symm here]

/-- Clearing leaves zero behind every region, and what is behind none as it was. -/
theorem byteAt_clear (hb : b.Backed) (l : Location) :
    b.clear.byteAt l = if l.device ∈ b.regions.map Region.device then 0 else b.byteAt l := by
  rw [byteAt, getElem?_devices_clear]
  by_cases registered : l.device ∈ b.regions.map Region.device
  · obtain ⟨r, mem, same⟩ := List.mem_map.mp registered
    obtain ⟨m, device, _⟩ := hb r mem
    rw [same] at device
    rw [if_pos registered, if_pos registered, device]
    exact (Ram.fresh_clear m).read? l.offset
  · rw [if_neg registered, if_neg registered, byteAt]

/-- After clearing, every mapped address shows zero. -/
theorem peek?_clear (hb : b.Backed) (a : Int) :
    b.clear.peek? a = if b.Maps a then .ok 0 else .error (.unmapped a) := by
  have hb' : b.clear.Backed := hb.of_shape (shape_clear b)
  by_cases mapped : b.Maps a
  · obtain ⟨l, here⟩ := maps_iff.mp mapped
    obtain ⟨r, mem, _, rfl⟩ := exists_region_of_locate? here
    have there : b.clear.location? a = some ⟨r.device, a - r.first⟩ := here
    rw [if_pos mapped, peek?_of_location hb' there, byteAt_clear hb,
      if_pos (List.mem_map_of_mem mem)]
  · have mapped' : ¬ b.clear.Maps a := mapped
    rw [if_neg mapped, peek?_of_not_maps mapped']

end Bus

end Chip8
