import Chip8.Rom
import Chip8.Proofs.Memory.Block
import Chip8.Proofs.Memory.Mount

/-!
Loading a program image.

An image that reaches past the end of the mapped addresses is refused before anything is written.
Any other is written byte by byte up to the first address that no region covers (`load_of_gap`).
Where there is none the image is in place afterwards and nothing else has changed
(`load_places_image`).

Only the end of the mapped addresses is looked at beforehand, not the gaps before it. So a load that
fails leaves memory as it was where there are no gaps, and nowhere else
(`failing_load_leaves_memory_iff`).
-/

namespace Chip8

namespace Bus

variable {b : Bus} {a : Int}

/-! ### Writing bytes -/

/-- Bytes as the values that are written. -/
def values (bytes : List UInt8) : List Int := bytes.map fun byte => (byte.toNat : Int)

@[simp] theorem length_values (bytes : List UInt8) : (values bytes).length = bytes.length := by
  simp [values]

theorem byte_of_mem_values (bytes : List UInt8) : ∀ v ∈ values bytes, 0 ≤ v ∧ v ≤ 255 := by
  intro v mem
  obtain ⟨byte, _, rfl⟩ := List.mem_map.mp mem
  have := byte.toNat_lt
  constructor <;> omega

theorem map_ofNat_values (bytes : List UInt8) :
    (values bytes).map (fun v => UInt8.ofNat v.toNat) = bytes := by
  simp [values, Function.comp_def]

/-- Bytes are written up to the first address that no region covers. -/
theorem writeFrom_values (hb : b.Backed) (a : Int) (bytes : List UInt8) :
    Bus.writeFrom a (values bytes) b =
      (answer () (b.transferFault? bytes.length a),
        (b.storeFrom a (values (bytes.take (b.reach bytes.length a)))).note
          (writes a (values (bytes.take (b.reach bytes.length a))))) := by
  have written := writeFrom_eq hb a (byte_of_mem_values bytes)
  rwa [length_values, values, ← List.map_take] at written

/-- Behind a mapped address the next one is mapped too, up to the end of the mapped addresses. -/
def Gapless (b : Bus) : Prop := ∀ a, b.Maps a → a + 1 < b.mappedEnd → b.Maps (a + 1)

/-- Where there are no gaps, a transfer inside the mapped addresses succeeds or does nothing. -/
theorem Gapless.reach_eq (gapless : b.Gapless) {n : Nat} (inside : a + n ≤ b.mappedEnd) :
    b.reach n a = 0 ∨ b.reach n a = n := by
  rcases Nat.eq_zero_or_pos (b.reach n a) with none | some
  · exact .inl none
  refine .inr (Nat.le_antisymm (reach_le n a) ?_)
  by_contra early
  have last : b.Maps (a + (b.reach n a - 1 : Nat)) := maps_of_lt_reach (n := n) (by omega)
  have next : a + (b.reach n a - 1 : Nat) + 1 = a + b.reach n a := by omega
  have mapped := gapless _ last (by omega)
  rw [next] at mapped
  exact not_maps_reach (by omega) mapped

end Bus

namespace Rom

open Bus

variable {b b' : Bus} {image : List UInt8} {start : Int}

/-! ### What a load does -/

/-- The bus with the bytes of an image in place before the first address that no region covers. -/
def written (b : Bus) (image : List UInt8) (start : Int) : Bus :=
  (b.storeFrom start (values (image.take (b.reach image.length start)))).note
    (writes start (values (image.take (b.reach image.length start))))

/-- An image that does not end inside the mapped addresses changes nothing. -/
theorem load_of_excess (large : b.mappedEnd < start + image.length) :
    load image start b = (.error (.imageTooLarge image.length start b.mappedEnd), b) := by
  rw [load, Attempt.bind_apply, Attempt.view_apply]
  simp only
  rw [if_pos large]
  rfl

theorem load_of_fits (hb : b.Backed) (fits : start + image.length ≤ b.mappedEnd) :
    load image start b =
      match b.transferFault? image.length start with
      | some e => (.error e, written b image start)
      | none => (.ok image.length, (written b image start).dropLog) := by
  rw [load, Attempt.bind_apply, Attempt.view_apply]
  simp only
  rw [if_neg (by omega), Attempt.bind_apply, ← values, writeFrom_values hb]
  cases b.transferFault? image.length start <;> rfl

/-- An image across an address that is not mapped is written up to there. -/
theorem load_of_gap (hb : b.Backed) (fits : start + image.length ≤ b.mappedEnd)
    (early : b.reach image.length start < image.length) :
    load image start b =
      (.error (.unmapped (start + b.reach image.length start)), written b image start) := by
  rcases transferFault?_cases (b := b) image.length start with ⟨_, fault⟩ | ⟨mapped, _⟩
  · rw [load_of_fits hb fits, fault]
  · exact absurd (mapped _ early) (not_maps_reach early)

/-- Where every address is mapped an image is loaded as a whole, and the log is emptied. -/
theorem load_of_maps (hb : b.Backed) (fits : start + image.length ≤ b.mappedEnd)
    (mapped : ∀ k < image.length, b.Maps (start + k)) :
    load image start b = (.ok image.length, (b.storeFrom start (values image)).dropLog) := by
  rw [load_of_fits hb fits, transferFault?_eq_none_iff.mpr mapped]
  simp only [written, reach_of_maps mapped, List.take_length]
  rfl

/-- A load is refused, ends at the first address that no region covers, or succeeds. -/
theorem load_cases (b : Bus) (image : List UInt8) (start : Int) :
    b.mappedEnd < start + image.length ∨
      (start + image.length ≤ b.mappedEnd ∧ b.reach image.length start < image.length) ∨
      (start + image.length ≤ b.mappedEnd ∧ ∀ k < image.length, b.Maps (start + k)) := by
  rcases Int.lt_or_le b.mappedEnd (start + image.length) with large | fits
  · exact .inl large
  rcases transferFault?_cases (b := b) image.length start with ⟨early, _⟩ | ⟨mapped, _⟩
  · exact .inr (.inl ⟨fits, early⟩)
  · exact .inr (.inr ⟨fits, mapped⟩)

/-- An image is accepted exactly if it ends inside the mapped addresses and each of its addresses is
covered. It is then in place, every other address shows what it showed before, and the log is empty.
Any other image is refused: as a bad value if it reaches past the end of the mapped addresses, and
for an access to an address that is not mapped otherwise. -/
theorem load_places_image (rams : b.OfRams) (distinct : b.Distinct) (image : List UInt8)
    (start : Int) :
    ((∃ n, (load image start b).1 = .ok n) ↔
      start + image.length ≤ b.mappedEnd ∧ ∀ k < image.length, b.Maps (start + k)) ∧
    (∀ n b', load image start b = (.ok n, b') →
      n = image.length ∧ b'.Holds start image ∧
      (∀ a, a < start ∨ start + image.length ≤ a → b'.peek? a = b.peek? a) ∧ b'.log = #[]) ∧
    (∀ e b', load image start b = (.error e, b') →
      e.kind = if b.mappedEnd < start + image.length then .badValue else .memoryAccess) := by
  have hb := rams.backed
  rcases load_cases b image start with large | ⟨fits, early⟩ | ⟨fits, mapped⟩
  · rw [load_of_excess large, if_pos large]
    refine ⟨⟨by simp, fun accepted => by omega⟩, by simp, ?_⟩
    intro e b' refused
    cases refused
    rfl
  · rw [load_of_gap hb fits early, if_neg (by omega)]
    refine ⟨⟨by simp, fun accepted => ?_⟩, by simp, ?_⟩
    · exact absurd (accepted.2 _ early) (not_maps_reach early)
    · intro e b' refused
      cases refused
      rfl
  · rw [load_of_maps hb fits mapped]
    refine ⟨⟨fun _ => ⟨fits, mapped⟩, fun _ => ⟨_, rfl⟩⟩, ?_, by simp⟩
    intro n b' accepted
    cases accepted
    -- Dropping the log changes nothing of what is shown, so storing is all there is to look at.
    have stores : b.Stores start (values image) (b.storeFrom start (values image)) := by
      refine stores_storeFrom hb distinct.separate (byte_of_mem_values image) ?_
      rwa [length_values]
    have held := stores.holds
    rw [map_ofNat_values] at held
    refine ⟨rfl, held, ?_, rfl⟩
    intro a outside
    rw [← length_values image] at outside
    exact stores.others a outside

/-- Two memories that adjoin, of which the later one was registered first. -/
def adjoining : Bus := (mount [(2, Ram.blank 2), (0, Ram.blank 1)] Bus.empty).2

theorem mounted_adjoining : Mounted [(2, Ram.blank 2), (0, Ram.blank 1)] adjoining := by
  have fresh : ∀ p ∈ [(2, Ram.blank 2), (0, Ram.blank 1)], p.2.Fresh := by simp [Ram.fresh_blank]
  obtain ⟨b, mounted, parts⟩ := exists_mounted fresh
  rwa [adjoining, mounted]

theorem maps_adjoining {a : Int} : adjoining.Maps a ↔ 0 ≤ a ∧ a < 5 := by
  rw [mounted_adjoining.maps]
  simp only [List.mem_cons, List.not_mem_nil, or_false, exists_eq_or_imp, exists_eq_left,
    Ram.size_blank]
  omega

/-- An image across the border of two memories is put in place. -/
theorem image_across_border_in_place :
    adjoining.OfRams ∧ adjoining.Distinct ∧
    ∃ b', load [0xAB, 0xCD] 1 adjoining = (.ok 2, b') ∧ b'.Holds 1 [0xAB, 0xCD] ∧
      b'.peek? 0 = .ok 0 ∧ b'.peek? 3 = .ok 0 := by
  have parts := mounted_adjoining
  have accepted : (load [0xAB, 0xCD] 1 adjoining).1 = .ok 2 := rfl
  obtain ⟨_, placed, _⟩ := load_places_image parts.rams parts.distinct [0xAB, 0xCD] 1
  obtain ⟨_, held, others, _⟩ := placed 2 _ (Prod.ext accepted rfl)
  refine ⟨parts.rams, parts.distinct, _, Prod.ext accepted rfl, held, ?_, ?_⟩
  · rw [others 0 (.inl (by decide))]
    rfl
  · rw [others 3 (.inr (by decide))]
    rfl

/-! ### What a failing load leaves behind -/

/-- A load that fails leaves memory as it was exactly if the image reached past the end of the mapped
addresses, or its bytes before the first address that no region covers were in place already. That
goes for every failing load exactly if the mapped addresses have no gaps. -/
theorem failing_load_leaves_memory_iff (rams : b.OfRams) :
    (∀ image start e b', load image start b = (.error e, b') →
      (b'.devices = b.devices ↔ b.mappedEnd < start + image.length ∨
        b.Settled start (values (image.take (b.reach image.length start))))) ∧
    ((∀ image start e b', load image start b = (.error e, b') → b'.devices = b.devices) ↔
      b.Gapless) := by
  have hb := rams.backed
  -- A single failing load first, by how far it gets.
  have each : ∀ image start e b', load image start b = (.error e, b') →
      (b'.devices = b.devices ↔ b.mappedEnd < start + image.length ∨
        b.Settled start (values (image.take (b.reach image.length start)))) := by
    intro image start e b' refused
    rcases load_cases b image start with large | ⟨fits, early⟩ | ⟨fits, mapped⟩
    · rw [load_of_excess large] at refused
      cases refused
      exact ⟨fun _ => .inl large, fun _ => rfl⟩
    · rw [load_of_gap hb fits early] at refused
      cases refused
      rw [written, devices_note, storeFrom_devices_eq_iff hb, or_iff_right (by omega)]
      intro k inside
      rw [length_values] at inside
      exact maps_of_lt_length_take inside
    · rw [load_of_maps hb fits mapped] at refused
      cases refused
  refine ⟨each, ?_, ?_⟩
  · intro leaves a mapped inside
    by_contra gap
    -- Two bytes across the gap, the first of which differs from what is there.
    obtain ⟨byte, held⟩ := rams.allRams_and_fitted.2.exists_peek? mapped
    have fits : a + ([byte + 1, 0] : List UInt8).length ≤ b.mappedEnd := by
      simp
      omega
    have early : b.reach ([byte + 1, 0] : List UInt8).length a = 1 := by
      simp [reach, mapped, gap]
    have refused := load_of_gap hb fits (by rw [early]; exact Nat.one_lt_two)
    have settled := ((each _ _ _ _ refused).mp (leaves _ _ _ _ refused)).resolve_left (by omega)
    rw [early] at settled
    have same := settled 0 (byte + 1).toNat rfl fun j later inside => by simp at inside; omega
    rw [Int.natCast_zero, Int.add_zero, held, Int.toNat_natCast, UInt8.ofNat_toNat] at same
    simp at same
  · intro gapless image start e b' refused
    rw [each image start e b' refused]
    rcases load_cases b image start with large | ⟨fits, early⟩ | ⟨fits, mapped⟩
    · exact .inl large
    · -- The gap comes before the first byte, so there are no bytes before it.
      have none : b.reach image.length start = 0 :=
        (gapless.reach_eq fits).resolve_right (by omega)
      refine .inr ?_
      intro k v found
      simp [none, values] at found
    · rw [load_of_maps hb fits mapped] at refused
      cases refused

/-- Memory behind the addresses 0 and 2, and none between them. -/
def gapped : Bus := (mount [(0, Ram.blank 0), (2, Ram.blank 0)] Bus.empty).2

/-- An image across a gap is left in memory in part. -/
theorem image_across_gap_left_in_part :
    gapped.OfRams ∧ gapped.peek? 0 = .ok 0 ∧
      ∃ b', load [7, 7] 0 gapped = (.error (.unmapped 1), b') ∧ b'.peek? 0 = .ok 7 := by
  have fresh : ∀ p ∈ [(0, Ram.blank 0), (2, Ram.blank 0)], p.2.Fresh := by simp [Ram.fresh_blank]
  obtain ⟨b, mounted, parts⟩ := exists_mounted fresh
  have same : gapped = b := congrArg Prod.snd mounted
  exact ⟨same ▸ parts.rams, rfl, (load [7, 7] 0 gapped).2, rfl, rfl⟩

/-- Memories that adjoin have no gaps: a load that fails below them leaves them as they were. -/
theorem failing_load_leaves_adjoining :
    adjoining.OfRams ∧ adjoining.Gapless ∧
      ∃ b', load [0xAB, 0xCD] (-1) adjoining = (.error (.unmapped (-1)), b') ∧
        b'.devices = adjoining.devices := by
  have rams := mounted_adjoining.rams
  have gapless : adjoining.Gapless := by
    intro a mapped inside
    have bound : adjoining.mappedEnd = 5 := rfl
    rw [maps_adjoining] at mapped ⊢
    omega
  have refused : (load [0xAB, 0xCD] (-1) adjoining).1 = .error (.unmapped (-1)) := rfl
  refine ⟨rams, gapless, _, Prod.ext refused rfl, ?_⟩
  exact (failing_load_leaves_memory_iff rams).2.mpr gapless _ _ _ _ (Prod.ext refused rfl)

end Rom

end Chip8
