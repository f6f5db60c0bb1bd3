import Mathlib.Algebra.GroupWithZero.Nat
import Chip8.Proofs.Memory.Clear
import Chip8.Proofs.Memory.Twin

/-!
Buses on which memories were mounted, each behind a region of its own.

A bus on which fresh memories were mounted maps the addresses of their regions and shows zero at
each (`Mounted`, `exists_mounted`). Memories that stand in a row cover one range without a gap
(`exists_inRow_iff`), so however that range is divided, and in whatever order the parts are mounted,
the buses are twins (`twins_of_partition`).
-/

namespace Chip8.Bus

/-- Puts memories on the bus, each behind a region from a given address on. -/
def mount : List (Nat × Ram) → Attempt Bus Unit
  | [] => pure ()
  | (first, memory) :: rest => do
    let device ← Attempt.view fun b => b.devices.size
    Attempt.update (·.attach (.ram memory))
    register first (first + memory.size - 1) device
    mount rest

/-- Memories one after the other, with the address at which each starts. -/
def inRow : Nat → List Ram → List (Nat × Ram)
  | _, [] => []
  | first, memory :: rest => (first, memory) :: inRow (first + memory.size) rest

/-! ### Mounted memories -/

/-- A bus on which fresh memories were mounted and nothing else was done. -/
structure Mounted (blocks : List (Nat × Ram)) (b : Bus) : Prop where
  rams : b.OfRams
  distinct : b.Distinct
  maps : ∀ a, b.Maps a ↔ ∃ p ∈ blocks, (p.1 : Int) ≤ a ∧ a < p.1 + p.2.size
  zero : ∀ l, b.byteAt l = 0
  log : b.log = #[]

theorem mounted_empty : Mounted [] Bus.empty where
  rams := .empty
  distinct := List.nodup_nil
  maps := fun a => by simp [Maps, Bus.empty]
  zero := fun l => by simp [byteAt, Bus.empty]
  log := rfl

/-- The bus with one more memory behind a region. -/
def withRam (b : Bus) (first : Nat) (memory : Ram) : Bus :=
  { b.attach (.ram memory) with
    regions := b.regions ++ [⟨first, first + memory.size - 1, b.devices.size⟩] }

theorem register_attach (b : Bus) (first : Nat) (memory : Ram) :
    register first (first + memory.size - 1) b.devices.size (b.attach (.ram memory)) =
      (.ok (), b.withRam first memory) := by
  have positive : 0 < memory.size := memory.nonempty
  have range : (0 : Int) ≤ first ∧ (first : Int) ≤ first + memory.size - 1 := by omega
  have length : (memory.size : Int) = first + memory.size - 1 - first + 1 := by omega
  have last : ((first : Int) + memory.size - 1).toNat = first + memory.size - 1 := by omega
  have found : (b.attach (.ram memory)).devices[b.devices.size]? = some (.ram memory) := by
    simp [attach]
  have fit : (b.attach (.ram memory)).registerFault? first (first + memory.size - 1)
      b.devices.size = none := by
    simp only [registerFault?, range, and_self, not_true, if_false, found, Device.store?,
      if_pos length]
  rw [register, fit, withRam]
  simp [attach, last]

theorem mount_cons (first : Nat) (memory : Ram) (rest : List (Nat × Ram)) (b : Bus) :
    mount ((first, memory) :: rest) b = mount rest (b.withRam first memory) := by
  rw [mount, Attempt.bind_apply, Attempt.view_apply]
  simp only [Attempt.bind_apply, Attempt.update_apply, register_attach]

variable {b : Bus} {blocks : List (Nat × Ram)}

/-- One more memory of zeros leaves a bus of zeros one. -/
theorem byteAt_withRam (b : Bus) (first : Nat) {memory : Ram} (fresh : memory.Fresh)
    (zero : ∀ l, b.byteAt l = 0) (l : Location) : (b.withRam first memory).byteAt l = 0 := by
  have before := zero l
  simp only [byteAt, withRam, attach, Array.getElem?_push] at before ⊢
  by_cases new : l.device = b.devices.size
  · rw [if_pos new]
    exact fresh.read? l.offset
  · rwa [if_neg new]

/-- Mounting one more fresh memory adds its addresses. -/
theorem Mounted.withRam (h : Mounted blocks b) (first : Nat) {memory : Ram}
    (fresh : memory.Fresh) : Mounted (blocks ++ [(first, memory)]) (b.withRam first memory) where
  rams := by
    have registered := OfRams.register first (first + memory.size - 1) b.devices.size
      (OfRams.attach memory h.rams)
    rwa [register_attach] at registered
  distinct := by
    -- Regions lead to devices that are there already, so no region has the number of the new one.
    have new : b.devices.size ∉ b.regions.map Region.device := by
      intro registered
      obtain ⟨r, mem, same⟩ := List.mem_map.mp registered
      obtain ⟨m, device, _⟩ := h.rams.backed r mem
      obtain ⟨inside, _⟩ := Array.getElem?_eq_some_iff.mp device
      omega
    rw [Distinct, Bus.withRam, List.map_append]
    refine List.Nodup.append h.distinct (List.nodup_singleton _) ?_
    exact List.disjoint_singleton.mpr new
  maps := by
    intro a
    have positive : 0 < memory.size := memory.nonempty
    have here : Region.Covers ⟨first, first + memory.size - 1, b.devices.size⟩ a ↔
        (first : Int) ≤ a ∧ a < first + memory.size := by
      simp only [Region.Covers]
      omega
    have split : (b.withRam first memory).Maps a ↔ b.Maps a ∨
        Region.Covers ⟨first, first + memory.size - 1, b.devices.size⟩ a := by
      simp [Maps, Bus.withRam, or_and_right, exists_or]
    rw [split, here, h.maps]
    simp [or_and_right, exists_or]
  zero := byteAt_withRam b first fresh h.zero
  log := h.log

/-- More memories can be mounted beside those that are there. -/
theorem Mounted.mount (h : Mounted blocks b) {more : List (Nat × Ram)}
    (fresh : ∀ p ∈ more, p.2.Fresh) :
    ∃ b', Bus.mount more b = (.ok (), b') ∧ Mounted (blocks ++ more) b' := by
  induction more generalizing blocks b with
  | nil => exact ⟨b, rfl, by rwa [List.append_nil]⟩
  | cons p more ih =>
      obtain ⟨first, memory⟩ := p
      obtain ⟨b', mounted, after⟩ := ih (h.withRam first (fresh _ List.mem_cons_self))
        fun p later => fresh p (List.mem_cons_of_mem _ later)
      refine ⟨b', by rw [mount_cons, mounted], ?_⟩
      rwa [List.append_assoc] at after

/-- Fresh memories can be mounted at any addresses. -/
theorem exists_mounted (fresh : ∀ p ∈ blocks, p.2.Fresh) :
    ∃ b, mount blocks Bus.empty = (.ok (), b) ∧ Mounted blocks b :=
  mounted_empty.mount fresh

/-! ### Memories in a row -/

/-- Memories in a row cover one range without a gap. -/
theorem exists_inRow_iff {first : Nat} {memories : List Ram} {a : Int} :
    (∃ p ∈ inRow first memories, (p.1 : Int) ≤ a ∧ a < p.1 + p.2.size) ↔
      (first : Int) ≤ a ∧ a < first + ((memories.map Ram.size).sum : Nat) := by
  induction memories generalizing first with
  | nil =>
      simp [inRow]
  | cons memory rest ih =>
      simp only [inRow, List.mem_cons, or_and_right, exists_or, exists_eq_left, ih, List.map_cons,
        List.sum_cons]
      omega

theorem mem_of_mem_inRow {first : Nat} {memories : List Ram} {p : Nat × Ram}
    (h : p ∈ inRow first memories) : p.2 ∈ memories := by
  induction memories generalizing first with
  | nil => cases h
  | cons memory rest ih =>
      rcases List.mem_cons.mp h with rfl | later
      · exact List.mem_cons_self
      · exact List.mem_cons_of_mem memory (ih later)

/-- Buses on which fresh memories cover the same addresses are twins. -/
theorem Mounted.twins {blocks' : List (Nat × Ram)} {b' : Bus} (h : Mounted blocks b)
    (h' : Mounted blocks' b') (maps : ∀ a, b.Maps a ↔ b'.Maps a) :
    Twins (fun _ => True) b b' where
  log := h.log.trans h'.log.symm
  maps := maps
  backed := h.rams.backed
  backed' := h'.rams.backed
  separate := h.distinct.separate
  separate' := h'.distinct.separate
  agree := by
    intro a _
    by_cases mapped : b.Maps a
    · obtain ⟨l, here⟩ := maps_iff.mp mapped
      obtain ⟨l', there⟩ := maps_iff.mp ((maps a).mp mapped)
      rw [peek?_of_location h.rams.backed here, peek?_of_location h'.rams.backed there, h.zero,
        h'.zero]
    · rw [peek?_of_not_maps mapped, peek?_of_not_maps fun there => mapped ((maps a).mpr there)]

/-- One memory, and memories in a row of the same size altogether, make twins when they are mounted,
in whatever order the parts are. -/
theorem twins_of_partition {memories : List Ram} {whole : Ram} {order : List (Nat × Ram)}
    (fresh : ∀ m ∈ memories, m.Fresh) (fresh' : whole.Fresh)
    (size : (memories.map Ram.size).sum = whole.size) (perm : order.Perm (inRow 0 memories)) :
    ∃ split one, mount order Bus.empty = (.ok (), split) ∧
      mount [(0, whole)] Bus.empty = (.ok (), one) ∧ Twins (fun _ => True) split one := by
  obtain ⟨split, mounted, parts⟩ := exists_mounted fun p mem =>
    fresh p.2 (mem_of_mem_inRow (perm.mem_iff.mp mem))
  have fresh'' : ∀ p ∈ inRow 0 [whole], p.2.Fresh := by
    intro p mem
    rwa [List.mem_singleton.mp (mem_of_mem_inRow mem)]
  obtain ⟨one, mounted', block⟩ := exists_mounted fresh''
  refine ⟨split, one, mounted, mounted', parts.twins block ?_⟩
  intro a
  rw [parts.maps, block.maps, exists_inRow_iff, List.map_singleton, List.sum_singleton, ← size,
    ← exists_inRow_iff]
  simp only [perm.mem_iff]

end Chip8.Bus
