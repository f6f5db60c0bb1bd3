import Mathlib.Data.List.Nodup
import Chip8.Proofs.Memory.Replay

/-!
Two buses side by side: buses that map the same addresses and agree on what some of them hold.

Where every address has a location of its own (`Bus.Separate`, as on a bus whose regions lead to
different memories) a bus is a map from addresses to bytes: a store changes one address
(`peek?_store_of_separate`), and replaying a log leaves at each address the byte that the log wrote
there last (`Records.peek?_cases`). Twins stay twins under accesses at the addresses on which they
agree, and answer them alike (`Twins.read`, `Twins.write`).
-/

namespace Chip8

/-- What a log writes last to an address, if it writes there. -/
def lastWrite? (a : Int) (xs : List Access) : Option Int :=
  ((xs.filter fun x => x.kind = .write ∧ x.address = a).getLast?).map Access.data

namespace Bus

variable {b c b' c' : Bus}

/-- No two regions lead to the same device. -/
def Distinct (b : Bus) : Prop := (b.regions.map Region.device).Nodup

/-- No two addresses lead to the same location. -/
def Separate (b : Bus) : Prop :=
  ∀ a a' l, b.location? a = some l → b.location? a' = some l → a = a'

/-- Where regions lead to different devices, addresses lead to different locations. -/
theorem Distinct.separate (h : b.Distinct) : b.Separate := by
  intro a a' l here there
  obtain ⟨r, mem, _, rfl⟩ := exists_region_of_locate? here
  obtain ⟨r', mem', _, same⟩ := exists_region_of_locate? there
  obtain ⟨device, offset⟩ := Location.mk.inj same
  obtain rfl : r = r' := List.inj_on_of_nodup_map h mem mem' device
  omega

/-- Whether addresses are separate depends on the regions alone. -/
theorem Separate.of_regions (h : b.Separate) (same : b'.regions = b.regions) : b'.Separate := by
  intro a a' l here there
  rw [location?_congr same] at here there
  exact h a a' l here there

/-- A byte stored at an address changes what that address holds and nothing else. -/
theorem peek?_store_of_separate (hb : b.Backed) (separate : b.Separate) {a : Int} (h : b.Maps a)
    (v a' : Int) :
    (b.store a v).peek? a' = if a' = a then .ok (UInt8.ofNat v.toNat) else b.peek? a' := by
  obtain ⟨l, here⟩ := maps_iff.mp h
  rw [peek?_store hb here]
  by_cases same : a' = a
  · rw [if_pos same, if_pos (same ▸ here)]
  · rw [if_neg same, if_neg fun there => same (separate a' a l there here)]

/-- Two buses with the same log that map the same addresses and hold the same bytes at some of
them. -/
structure Twins (A : Int → Prop) (b c : Bus) : Prop where
  log : b.log = c.log
  maps : ∀ a, b.Maps a ↔ c.Maps a
  backed : b.Backed
  backed' : c.Backed
  separate : b.Separate
  separate' : c.Separate
  agree : ∀ a, A a → b.peek? a = c.peek? a

variable {A : Int → Prop}

/-- Twins on which the addresses read agree read alike. -/
theorem Twins.read (h : Twins A b c) (a : Int)
    (reads : ∀ x ∈ (Bus.read a b).2.log, x.kind = .read → A x.address) :
    (Bus.read a b).1 = (Bus.read a c).1 ∧ Twins A (Bus.read a b).2 (Bus.read a c).2 := by
  by_cases mapped : b.Maps a
  · obtain ⟨l, here⟩ := maps_iff.mp mapped
    obtain ⟨l', there⟩ := maps_iff.mp ((h.maps a).mp mapped)
    rw [read_of_location h.backed here] at reads
    have read : A a := reads ⟨.read, a, (b.byteAt l).toNat⟩ (by simp [note]) rfl
    have bytes : b.byteAt l = c.byteAt l' := by
      have same := h.agree a read
      rwa [peek?_of_location h.backed here, peek?_of_location h.backed' there, Except.ok.injEq]
        at same
    rw [read_of_location h.backed here, read_of_location h.backed' there, bytes]
    exact ⟨rfl, { h with log := by simp only [note, h.log] }⟩
  · have mapped' : ¬ c.Maps a := fun there => mapped ((h.maps a).mpr there)
    rw [read_of_not_maps mapped, read_of_not_maps mapped']
    exact ⟨rfl, h⟩

/-- Twins take writes alike. -/
theorem Twins.write (h : Twins A b c) (a v : Int) :
    (Bus.write a v b).1 = (Bus.write a v c).1 ∧ Twins A (Bus.write a v b).2 (Bus.write a v c).2 := by
  -- Both sides refuse for the same reason, or both store the same byte.
  by_cases mapped : b.Maps a
  · have mapped' : c.Maps a := (h.maps a).mp mapped
    by_cases byte : 0 ≤ v ∧ v ≤ 255
    · rw [write_of_maps h.backed mapped byte, write_of_maps h.backed' mapped' byte]
      refine ⟨rfl, ?_⟩
      exact {
        log := by simp only [note, log_store, h.log]
        maps := fun a' => by simp only [maps_note, maps_store, h.maps a']
        backed := by simpa using h.backed.store a v
        backed' := by simpa using h.backed'.store a v
        separate := h.separate.of_regions (by simp)
        separate' := h.separate'.of_regions (by simp)
        agree := fun a' agreed => by
          simp only [peek?_note, peek?_store_of_separate h.backed h.separate mapped,
            peek?_store_of_separate h.backed' h.separate' mapped', h.agree a' agreed] }
    · rw [write_of_not_byte h.backed mapped byte, write_of_not_byte h.backed' mapped' byte]
      exact ⟨rfl, h⟩
  · have mapped' : ¬ c.Maps a := fun there => mapped ((h.maps a).mpr there)
    rw [write_of_not_maps mapped, write_of_not_maps mapped']
    exact ⟨rfl, h⟩

/-! ### What a log leaves at an address -/

theorem lastWrite?_cons (a : Int) (x : Access) (xs : List Access) :
    lastWrite? a (x :: xs) =
      match lastWrite? a xs with
      | some v => some v
      | none => if x.kind = .write ∧ x.address = a then some x.data else none := by
  unfold lastWrite?
  by_cases here : x.kind = .write ∧ x.address = a
  · rw [List.filter_cons_of_pos (by simpa using here), List.getLast?_cons, if_pos here]
    cases (xs.filter fun x => x.kind = .write ∧ x.address = a).getLast? <;> rfl
  · rw [List.filter_cons_of_neg (by simpa using here), if_neg here]
    cases (xs.filter fun x => x.kind = .write ∧ x.address = a).getLast? <;> rfl

/-- An access leaves a location as it was unless it writes there, and then the byte written. -/
theorem byte_after_access (separate : b.Separate) {a : Int} {l : Location}
    (here : b.location? a = some l) {x : Access} {memory after : Memory}
    (h : x.replay? b.regions memory = some after) :
    if x.kind = .write ∧ x.address = a then x.data = (after l).toNat else after l = memory l := by
  obtain ⟨kind, address, data⟩ := x
  cases found : b.location? address with
  | none =>
      rw [location?] at found
      simp [Access.replay?, found] at h
  | some l' =>
      cases kind with
      | read =>
          rw [replay?_read found, Option.ite_none_right_eq_some, Option.some.injEq] at h
          obtain ⟨_, rfl⟩ := h
          simp
      | write =>
          rw [replay?_write found, Option.ite_none_right_eq_some, Option.some.injEq] at h
          obtain ⟨⟨low, high⟩, rfl⟩ := h
          by_cases same : address = a
          · obtain rfl : l' = l := Option.some.inj (found.symm.trans (same ▸ here))
            have small : data.toNat < 256 := by omega
            have byte : (UInt8.ofNat data.toNat).toNat = data.toNat := by
              rw [UInt8.toNat_ofNat', Nat.mod_eq_of_lt small]
            rw [if_pos ⟨rfl, same⟩, Function.update_self, byte, Int.toNat_of_nonneg low]
          · have other : l ≠ l' := fun eq => same (separate address a l (eq ▸ found) here)
            simp [same, other]

/-- Replaying a log leaves at a location the byte that the log wrote there last. -/
theorem byte_after_replay (separate : b.Separate) {a : Int} {l : Location}
    (here : b.location? a = some l) {xs : List Access} {memory after : Memory}
    (h : memory.replay? b.regions xs = some after) :
    match lastWrite? a xs with
    | some v => v = (after l).toNat
    | none => after l = memory l := by
  induction xs generalizing memory with
  | nil =>
      cases h
      rfl
  | cons x xs ih =>
      rw [Memory.replay?_cons, Option.bind_eq_some_iff] at h
      obtain ⟨next, first, rest⟩ := h
      have single := byte_after_access separate here first
      have later := ih rest
      rw [lastWrite?_cons]
      -- Later accesses count first; only without a later write does this one.
      cases last : lastWrite? a xs with
      | some v =>
          rw [last] at later
          exact later
      | none =>
          rw [last] at later
          by_cases written : x.kind = .write ∧ x.address = a
          · rw [if_pos written] at single
            simp only [if_pos written]
            rw [later, single]
          · rw [if_neg written] at single
            simp only [if_neg written]
            rw [later, single]

/-- A log that can be replayed writes to no address that leads nowhere. -/
theorem lastWrite?_of_not_maps {a : Int} (h : ¬ b.Maps a) {xs : List Access}
    {memory after : Memory} (replayed : memory.replay? b.regions xs = some after) :
    lastWrite? a xs = none := by
  induction xs generalizing memory with
  | nil => rfl
  | cons x xs ih =>
      rw [Memory.replay?_cons, Option.bind_eq_some_iff] at replayed
      obtain ⟨next, first, rest⟩ := replayed
      have elsewhere : x.address ≠ a := by
        rintro rfl
        have nowhere := location?_eq_none_iff.mpr h
        rw [location?] at nowhere
        simp [Access.replay?, nowhere] at first
      simp [lastWrite?_cons, ih rest, elsewhere]

/-- A log that records how a bus became another tells for each address whether it holds the byte
written there last, or what it held before. -/
theorem Records.peek?_cases {xs : List Access} (hb : b.Backed) (separate : b.Separate)
    (h : b.Records xs b') (a : Int) :
    (∃ byte : UInt8, lastWrite? a xs = some (byte.toNat : Int) ∧ b'.peek? a = .ok byte) ∨
      (lastWrite? a xs = none ∧ b'.peek? a = b.peek? a) := by
  have regions := regions_of_shape h.shape
  have hb' := hb.of_shape h.shape
  by_cases mapped : b.Maps a
  · obtain ⟨l, here⟩ := maps_iff.mp mapped
    have there : b'.location? a = some l := by rw [location?_congr regions, here]
    have left := byte_after_replay separate here h.memory
    rw [peek?_of_location hb here, peek?_of_location hb' there]
    cases last : lastWrite? a xs with
    | some v =>
        rw [last] at left
        exact .inl ⟨b'.byteAt l, by rw [left], rfl⟩
    | none =>
        rw [last] at left
        exact .inr ⟨rfl, by rw [left]⟩
  · have mapped' : ¬ b'.Maps a := fun found => mapped ((maps_congr regions a).mp found)
    refine .inr ⟨lastWrite?_of_not_maps mapped h.memory, ?_⟩
    rw [peek?_of_not_maps mapped, peek?_of_not_maps mapped']

/-- Two buses with one record hold the same byte wherever it tells of a write, and elsewhere each
what it held before. -/
theorem Records.peek?_both {xs : List Access} (hb : b.Backed) (hc : c.Backed)
    (separate : b.Separate) (separate' : c.Separate) (h : b.Records xs b') (h' : c.Records xs c')
    (a : Int) :
    (∃ byte : UInt8, lastWrite? a xs = some (byte.toNat : Int) ∧
        b'.peek? a = .ok byte ∧ c'.peek? a = .ok byte) ∨
      (lastWrite? a xs = none ∧ b'.peek? a = b.peek? a ∧ c'.peek? a = c.peek? a) := by
  rcases h.peek?_cases hb separate a with ⟨byte, last, here⟩ | ⟨last, here⟩
  · rcases h'.peek?_cases hc separate' a with ⟨byte', last', there⟩ | ⟨last', _⟩
    · have same : byte' = byte := by
        rw [last, Option.some.injEq, Int.natCast_inj] at last'
        exact (UInt8.toNat_inj.mp last').symm
      exact .inl ⟨byte, last, here, same ▸ there⟩
    · rw [last] at last'
      cases last'
  · rcases h'.peek?_cases hc separate' a with ⟨byte', last', _⟩ | ⟨_, there⟩
    · rw [last] at last'
      cases last'
    · exact .inr ⟨last, here, there⟩

end Bus

end Chip8
