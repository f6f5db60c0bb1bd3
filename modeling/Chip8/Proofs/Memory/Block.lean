import Chip8.Proofs.Memory.Device
import Chip8.Proofs.Memory.Twin

/-!
Blocks of bytes at consecutive addresses.

A bus *holds* a block when each address of the block shows its byte. Reading needs no more than
that, whatever the devices are. Where regions lead to different memories, storing a block of values
puts each at its own address and leaves every other address alone (`stores_storeFrom`).
-/

namespace Chip8.Bus

variable {b b' : Bus} {a : Int}

/-! ### Blocks that are read -/

/-- The addresses from `a` on show the bytes of a block. -/
def Holds (b : Bus) (a : Int) (bytes : List UInt8) : Prop :=
  ∀ (k : Nat) (byte : UInt8), bytes[k]? = some byte → b.peek? (a + k) = .ok byte

theorem holds_nil (b : Bus) (a : Int) : b.Holds a [] := by
  intro k byte found
  simp at found

theorem holds_cons {byte : UInt8} {bytes : List UInt8} :
    b.Holds a (byte :: bytes) ↔ b.peek? a = .ok byte ∧ b.Holds (a + 1) bytes := by
  have shift (k : Nat) : a + 1 + (k : Int) = a + ((k + 1 : Nat) : Int) := by omega
  constructor
  · intro holds
    refine ⟨by simpa using holds 0 byte rfl, ?_⟩
    intro k later found
    rw [shift]
    exact holds (k + 1) later (by simpa using found)
  · rintro ⟨first, rest⟩ k later found
    cases k with
    | zero =>
        cases found
        simpa using first
    | succ k =>
        rw [← shift]
        exact rest k later (by simpa using found)

@[simp] theorem holds_note (b : Bus) (xs : List Access) (a : Int) (bytes : List UInt8) :
    (b.note xs).Holds a bytes ↔ b.Holds a bytes := Iff.rfl

/-- A bus that shows the same bytes at the addresses of a block holds it too. -/
theorem Holds.of_peek? {bytes : List UInt8} (h : b.Holds a bytes)
    (same : ∀ k < bytes.length, b'.peek? (a + k) = b.peek? (a + k)) : b'.Holds a bytes := by
  intro k byte found
  rw [same k (List.getElem?_eq_some_iff.mp found).1]
  exact h k byte found

/-- A bus that holds a block holds each part of it. -/
theorem Holds.slice {bytes : List UInt8} (h : b.Holds a bytes) (first count : Nat) :
    b.Holds (a + first) ((bytes.drop first).take count) := by
  intro k byte found
  rw [List.getElem?_take, List.getElem?_drop, Option.ite_none_right_eq_some] at found
  rw [Int.add_assoc, ← Int.natCast_add]
  exact h (first + k) byte found.2

@[simp] theorem holds_add_zero (b : Bus) (a : Int) (bytes : List UInt8) :
    b.Holds (a + ((0 : Nat) : Int)) bytes ↔ b.Holds a bytes := by
  rw [Int.natCast_zero, Int.add_zero]

/-- On a fitted bus an address that is covered shows some byte. -/
theorem Fitted.exists_peek? (fitted : b.Fitted) (mapped : b.Maps a) :
    ∃ byte, b.peek? a = .ok byte := by
  obtain ⟨d, l, target, serves⟩ := fitted.target? mapped
  obtain ⟨byte, answers⟩ := serves.read?
  refine ⟨byte, ?_⟩
  simp only [peek?, target, answers]

/-- The bytes that `n` addresses from `a` on show, zero for one that shows none. -/
def shownFrom (b : Bus) (n : Nat) (a : Int) : List UInt8 :=
  (List.range n).map fun k : Nat => ((b.peek? (a + k)).toOption).getD 0

@[simp] theorem length_shownFrom (b : Bus) (n : Nat) (a : Int) :
    (b.shownFrom n a).length = n := by
  simp [shownFrom]

theorem shownFrom_congr (same : ∀ a, b.peek? a = b'.peek? a) (n : Nat) (a : Int) :
    b.shownFrom n a = b'.shownFrom n a := by
  simp only [shownFrom, same]

/-- Where every address is mapped, the block that is shown is held. -/
theorem Fitted.holds_shownFrom (fitted : b.Fitted) {n : Nat}
    (mapped : ∀ k < n, b.Maps (a + k)) : b.Holds a (b.shownFrom n a) := by
  intro k byte found
  obtain ⟨inside, shown⟩ := List.getElem?_eq_some_iff.mp found
  rw [length_shownFrom] at inside
  obtain ⟨held, peeked⟩ := fitted.exists_peek? (mapped k inside)
  simp only [shownFrom, List.getElem_map, List.getElem_range, peeked] at shown
  rw [peeked, ← shown]
  rfl

/-- On a fitted bus the addresses that are covered show some bytes. -/
theorem Fitted.exists_holds (fitted : b.Fitted) {n : Nat} (mapped : ∀ k < n, b.Maps (a + k)) :
    ∃ bytes : List UInt8, bytes.length = n ∧ b.Holds a bytes :=
  ⟨b.shownFrom n a, length_shownFrom b n a, fitted.holds_shownFrom mapped⟩

/-- On a backed bus the bytes that a transfer meets are those that its addresses show. -/
theorem holds_bytesFrom (hb : b.Backed) (n : Nat) (a : Int) : b.Holds a (b.bytesFrom n a) := by
  induction n generalizing a with
  | zero => exact holds_nil b a
  | succ n ih =>
      cases here : b.location? a with
      | none =>
          simp only [bytesFrom, here]
          exact holds_nil b a
      | some l =>
          simp only [bytesFrom, here]
          exact holds_cons.mpr ⟨peek?_of_location hb here, ih (a + 1)⟩

/-- A read answers what a look shows, and is logged. -/
theorem read_of_peek? {byte : UInt8} (h : b.peek? a = .ok byte) :
    Bus.read a b = (.ok byte, b.note [⟨.read, a, byte.toNat⟩]) := by
  simp only [Bus.read, h, record_eq_note]

/-! ### Blocks that are stored -/

/-- A bus became another by storing values at the addresses from `a` on: each of them shows its
value, and every other address what it showed before. -/
structure Stores (b : Bus) (a : Int) (values : List Int) (b' : Bus) : Prop where
  stored : ∀ (k : Nat) (v : Int), values[k]? = some v →
    ∃ byte : UInt8, b'.peek? (a + k) = .ok byte ∧ (byte.toNat : Int) = v
  others : ∀ a', a' < a ∨ a + values.length ≤ a' → b'.peek? a' = b.peek? a'

theorem peek?_congr (regions : b.regions = b'.regions) (devices : b.devices = b'.devices)
    (a : Int) : b.peek? a = b'.peek? a := by
  rw [peek?, peek?, target?, target?, location?_congr regions, devices]

/-- Buses that differ in their logs alone show the same bytes. -/
theorem peek?_of_dropLog (h : b.dropLog = b'.dropLog) (a : Int) : b.peek? a = b'.peek? a :=
  peek?_congr (congrArg Bus.regions h) (congrArg Bus.devices h) a

theorem dropLog_eq (regions : b.regions = b'.regions) (devices : b.devices = b'.devices) :
    b.dropLog = b'.dropLog := by
  rw [dropLog, dropLog, regions, devices]

theorem stores_nil (same : ∀ a', b'.peek? a' = b.peek? a') (a : Int) : b.Stores a [] b' where
  stored := by
    intro k v found
    simp at found
  others := fun a' _ => same a'

/-- A byte that was stored is read back with its value. -/
theorem toNat_ofNat_toNat {v : Int} (byte : 0 ≤ v ∧ v ≤ 255) :
    ((UInt8.ofNat v.toNat).toNat : Int) = v := by
  have small : v.toNat < 256 := by omega
  rw [UInt8.toNat_ofNat', Nat.mod_eq_of_lt small, Int.toNat_of_nonneg byte.1]

/-- Where addresses lead to locations of their own, storing changes the addresses that are stored to
and no others. -/
theorem stores_storeFrom (hb : b.Backed) (separate : b.Separate) {values : List Int}
    (bytes : ∀ v ∈ values, 0 ≤ v ∧ v ≤ 255) (mapped : ∀ k < values.length, b.Maps (a + k)) :
    b.Stores a values (b.storeFrom a values) := by
  induction values generalizing a b with
  | nil => exact stores_nil (fun _ => rfl) a
  | cons v values ih =>
      have shift (k : Nat) : a + ((k + 1 : Nat) : Int) = a + 1 + (k : Int) := by omega
      have here : b.Maps a := by simpa using mapped 0 (by simp)
      have store := peek?_store_of_separate hb separate here v
      -- The rest is stored behind the first value and so does not overwrite it.
      have rest : (b.store a v).Stores (a + 1) values (b.storeFrom a (v :: values)) := by
        refine ih (hb.store a v) (separate.of_regions (regions_store b a v)) ?_ ?_
        · exact fun v' later => bytes v' (List.mem_cons_of_mem v later)
        · intro k inside
          rw [maps_store, ← shift]
          exact mapped (k + 1) (by simpa using inside)
      constructor
      · intro k v' found
        cases k with
        | zero =>
            cases found
            refine ⟨UInt8.ofNat v.toNat, ?_, toNat_ofNat_toNat (bytes v List.mem_cons_self)⟩
            rw [Int.natCast_zero, Int.add_zero, rest.others a (.inl (by omega)), store, if_pos rfl]
        | succ k =>
            rw [shift]
            exact rest.stored k v' (by simpa using found)
      · intro a' outside
        rw [List.length_cons] at outside
        rw [rest.others a' (by omega), store, if_neg (by omega)]

/-- Values that were stored are held as bytes. -/
theorem Stores.holds {values : List Int} (h : b.Stores a values b') :
    b'.Holds a (values.map fun v => UInt8.ofNat v.toNat) := by
  intro k byte found
  rw [List.getElem?_map, Option.map_eq_some_iff] at found
  obtain ⟨v, value, rfl⟩ := found
  obtain ⟨byte, held, rfl⟩ := h.stored k v value
  rw [held, Int.toNat_natCast, UInt8.ofNat_toNat]

/-- Storing the bytes that a bus holds already changes nothing. -/
theorem storeFrom_held (hb : b.Backed) {bytes : List UInt8} (holds : b.Holds a bytes) :
    (b.storeFrom a (bytes.map fun byte => (byte.toNat : Int))).devices = b.devices := by
  rw [storeFrom_devices_eq_iff hb]
  · intro k v found _
    rw [List.getElem?_map, Option.map_eq_some_iff] at found
    obtain ⟨byte, held, rfl⟩ := found
    rw [holds k byte held, Int.toNat_natCast, UInt8.ofNat_toNat]
  · intro k inside
    rw [List.length_map] at inside
    exact maps_of_peek? (holds k _ (List.getElem?_eq_getElem inside))

end Chip8.Bus
