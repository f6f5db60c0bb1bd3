import Chip8.Proofs.Memory.Location

/-!
Transfers: accesses to consecutive addresses, which stop at the first address that no region covers.

What a transfer of `n` addresses from `a` on does is a function of the bus before it: the fault it
ends in (`transferFault?`), the bytes it meets (`bytesFrom`), and for values to be written the bytes
afterwards (`storeFrom`). `writeFrom_eq` says so for writing; where a transfer stops is fixed by the
regions alone (`transferFault?_eq_none_iff`), whatever it stores on its way.

`storeFrom_devices_eq_iff` tells when writing leaves memory as it was: each location already holds
the value that is written there last. Regions may overlap, so several addresses of one transfer may
share a location.
-/

namespace Chip8

/-- The answer of an action that ends in a fault or in nothing of the kind. -/
def answer {α : Type} (a : α) : Option Fault → Except Fault α
  | none => .ok a
  | some e => .error e

@[simp] theorem answer_none {α : Type} (a : α) : answer a none = .ok a := rfl

@[simp] theorem answer_some {α : Type} (a : α) (e : Fault) : answer a (some e) = .error e := rfl

namespace Bus

/-! ### The log -/

def note (b : Bus) (xs : List Access) : Bus := { b with log := b.log ++ xs.toArray }

/-- The accesses that read bytes at consecutive addresses. -/
def reads : Int → List UInt8 → List Access
  | _, [] => []
  | a, d :: ds => ⟨.read, a, d.toNat⟩ :: reads (a + 1) ds

/-- The accesses that write values at consecutive addresses. -/
def writes : Int → List Int → List Access
  | _, [] => []
  | a, v :: vs => ⟨.write, a, v⟩ :: writes (a + 1) vs

section Note

variable (b : Bus) (xs ys : List Access) (a v : Int) (l : Location)

@[simp] theorem note_nil : b.note [] = b := by simp [note]

@[simp] theorem note_note : (b.note xs).note ys = b.note (xs ++ ys) := by simp [note]

theorem record_eq_note (x : Access) : b.record x = b.note [x] := by simp [record, note]

@[simp] theorem regions_note : (b.note xs).regions = b.regions := rfl

@[simp] theorem devices_note : (b.note xs).devices = b.devices := rfl

@[simp] theorem location?_note : (b.note xs).location? a = b.location? a := rfl

@[simp] theorem byteAt_note : (b.note xs).byteAt l = b.byteAt l := rfl

@[simp] theorem maps_note : (b.note xs).Maps a ↔ b.Maps a := Iff.rfl

@[simp] theorem peek?_note : (b.note xs).peek? a = b.peek? a := rfl

@[simp] theorem backed_note : (b.note xs).Backed ↔ b.Backed := Iff.rfl

@[simp] theorem shape_note : (b.note xs).shape = b.shape := rfl

theorem store_note : (b.note xs).store a v = (b.store a v).note xs := by
  obtain ⟨devices, regions, log⟩ := b
  simp only [note, store]
  split <;> rfl

end Note

variable {b : Bus}

@[simp] theorem maps_store (b : Bus) (a v a' : Int) : (b.store a v).Maps a' ↔ b.Maps a' := by
  simp [Maps]

/-! ### Single accesses -/

/-- A read at a mapped address answers the byte there and is logged. -/
theorem read_of_location (hb : b.Backed) {a : Int} {l : Location} (h : b.location? a = some l) :
    read a b = (.ok (b.byteAt l), b.note [⟨.read, a, (b.byteAt l).toNat⟩]) := by
  simp [read, peek?_of_location hb h, record_eq_note]

theorem read_of_not_maps {a : Int} (h : ¬ b.Maps a) : read a b = (.error (.unmapped a), b) := by
  simp [read, peek?_of_not_maps h]

/-- A byte is written where its address is mapped, and logged. -/
theorem write_of_maps (hb : b.Backed) {a v : Int} (h : b.Maps a) (hv : 0 ≤ v ∧ v ≤ 255) :
    write a v b = (.ok (), (b.store a v).note [⟨.write, a, v⟩]) := by
  simp [write, writeFault?_eq hb h, hv, record_eq_note]

theorem write_of_not_maps {a v : Int} (h : ¬ b.Maps a) :
    write a v b = (.error (.unmapped a), b) := by
  simp [write, writeFault?_of_not_maps h]

/-! ### Consecutive addresses -/

/-- The fault in which an access to each of `n` addresses from `a` on ends. -/
def transferFault? (b : Bus) : Nat → Int → Option Fault
  | 0, _ => none
  | n + 1, a => if b.Maps a then b.transferFault? n (a + 1) else some (.unmapped a)

/-- How many of the `n` addresses from `a` on come before the first that no region covers. -/
def reach (b : Bus) : Nat → Int → Nat
  | 0, _ => 0
  | n + 1, a => if b.Maps a then b.reach n (a + 1) + 1 else 0

/-- The bytes at the `n` addresses from `a` on, up to the first that no region covers. -/
def bytesFrom (b : Bus) : Nat → Int → List UInt8
  | 0, _ => []
  | n + 1, a =>
    match b.location? a with
    | some l => b.byteAt l :: b.bytesFrom n (a + 1)
    | none => []

/-- The bus with values stored at the addresses from `a` on. -/
def storeFrom (b : Bus) : Int → List Int → Bus
  | _, [] => b
  | a, v :: vs => (b.store a v).storeFrom (a + 1) vs

/-- A transfer succeeds exactly when each of its addresses is covered. -/
theorem transferFault?_eq_none_iff {n : Nat} {a : Int} :
    b.transferFault? n a = none ↔ ∀ k < n, b.Maps (a + k) := by
  induction n generalizing a with
  | zero => simp [transferFault?]
  | succ n ih =>
      by_cases h : b.Maps a
      · simp only [transferFault?, if_pos h, ih]
        constructor
        · intro rest k hk
          cases k with
          | zero => simpa using h
          | succ k =>
              have := rest k (by omega)
              rwa [show a + 1 + (k : Int) = a + ((k + 1 : Nat) : Int) by omega] at this
        · intro all k hk
          have := all (k + 1) (by omega)
          rwa [show a + ((k + 1 : Nat) : Int) = a + 1 + (k : Int) by omega] at this
      · simp only [transferFault?, if_neg h, reduceCtorEq, false_iff]
        intro all
        exact h (by simpa using all 0 (by omega))

/-- A transfer that fails names the first address that no region covers. -/
theorem transferFault?_eq_some {n : Nat} {a : Int} {e : Fault}
    (h : b.transferFault? n a = some e) : e = .unmapped (a + b.reach n a) := by
  induction n generalizing a with
  | zero => simp [transferFault?] at h
  | succ n ih =>
      by_cases mapped : b.Maps a
      · simp only [transferFault?, if_pos mapped] at h
        rw [ih h, reach, if_pos mapped]
        congr 1
        omega
      · simp only [transferFault?, if_neg mapped, Option.some.injEq] at h
        simp [reach, mapped, ← h]

theorem reach_le (n : Nat) (a : Int) : b.reach n a ≤ n := by
  induction n generalizing a with
  | zero => simp [reach]
  | succ n ih =>
      have := ih (a + 1)
      simp only [reach]
      split <;> omega

theorem length_bytesFrom (n : Nat) (a : Int) : (b.bytesFrom n a).length = b.reach n a := by
  induction n generalizing a with
  | zero => rfl
  | succ n ih =>
      by_cases mapped : b.Maps a
      · obtain ⟨l, h⟩ := maps_iff.mp mapped
        simp [bytesFrom, reach, h, mapped, ih]
      · simp [bytesFrom, reach, location?_eq_none_iff.mpr mapped, mapped]

/-- Every address before the end of a transfer is covered. -/
theorem maps_of_lt_reach {n k : Nat} {a : Int} (h : k < b.reach n a) : b.Maps (a + k) := by
  induction n generalizing a k with
  | zero => simp [reach] at h
  | succ n ih =>
      by_cases mapped : b.Maps a
      · cases k with
        | zero => simpa using mapped
        | succ k =>
            simp only [reach, if_pos mapped] at h
            have := ih (a := a + 1) (k := k) (by omega)
            rwa [show a + 1 + (k : Int) = a + ((k + 1 : Nat) : Int) by omega] at this
      · simp [reach, mapped] at h

/-- What a transfer handles before its end has covered addresses. -/
theorem maps_of_lt_length_take {α : Type} {xs : List α} {n k : Nat} {a : Int}
    (h : k < (xs.take (b.reach n a)).length) : b.Maps (a + k) := by
  rw [List.length_take] at h
  exact maps_of_lt_reach (Nat.lt_of_lt_of_le h (Nat.min_le_left _ _))

/-- A transfer that stops early stops at an address that no region covers. -/
theorem not_maps_reach {n : Nat} {a : Int} (h : b.reach n a < n) : ¬ b.Maps (a + b.reach n a) := by
  induction n generalizing a with
  | zero => exact absurd h (Nat.not_lt_zero _)
  | succ n ih =>
      by_cases mapped : b.Maps a
      · rw [reach, if_pos mapped] at h ⊢
        rw [show a + ((b.reach n (a + 1) + 1 : Nat) : Int) = a + 1 + b.reach n (a + 1) by omega]
        exact ih (by omega)
      · simp [reach, mapped]

/-- Where every address is mapped a transfer reaches them all. -/
theorem reach_of_maps {n : Nat} {a : Int} (mapped : ∀ k < n, b.Maps (a + k)) : b.reach n a = n := by
  rcases Nat.lt_or_ge (b.reach n a) n with early | whole
  · exact absurd (mapped _ early) (not_maps_reach early)
  · exact Nat.le_antisymm (reach_le n a) whole

/-- A transfer stops at the first address that no region covers, or each of its addresses is
covered. -/
theorem transferFault?_cases (n : Nat) (a : Int) :
    (b.reach n a < n ∧ b.transferFault? n a = some (.unmapped (a + b.reach n a))) ∨
      ((∀ k < n, b.Maps (a + k)) ∧ b.transferFault? n a = none) := by
  cases fault : b.transferFault? n a with
  | none => exact .inr ⟨transferFault?_eq_none_iff.mp fault, rfl⟩
  | some e =>
      rcases Nat.lt_or_ge (b.reach n a) n with early | whole
      · exact .inl ⟨early, by rw [transferFault?_eq_some fault]⟩
      · have mapped : ∀ k < n, b.Maps (a + k) := fun k inside =>
          maps_of_lt_reach (n := n) (by omega)
        rw [transferFault?_eq_none_iff.mpr mapped] at fault
        cases fault

section Regions

variable {b' : Bus}

theorem maps_congr (h : b.regions = b'.regions) (a : Int) : b.Maps a ↔ b'.Maps a := by
  simp [Maps, h]

theorem reach_congr (h : b.regions = b'.regions) (n : Nat) (a : Int) :
    b.reach n a = b'.reach n a := by
  induction n generalizing a with
  | zero => rfl
  | succ n ih => simp only [reach, maps_congr h a, ih]

theorem transferFault?_congr (h : b.regions = b'.regions) (n : Nat) (a : Int) :
    b.transferFault? n a = b'.transferFault? n a := by
  induction n generalizing a with
  | zero => rfl
  | succ n ih => simp only [transferFault?, maps_congr h a, ih]

theorem byteAt_congr (h : b.devices = b'.devices) (l : Location) : b.byteAt l = b'.byteAt l := by
  rw [byteAt, byteAt, h]

/-- The bytes from an address on depend on nothing but regions and devices. -/
theorem bytesFrom_congr (h : b.regions = b'.regions) (hd : b.devices = b'.devices) (n : Nat)
    (a : Int) : b.bytesFrom n a = b'.bytesFrom n a := by
  induction n generalizing a with
  | zero => rfl
  | succ n ih => simp only [bytesFrom, location?, h, byteAt_congr hd, ih]

theorem devices_store_congr (h : b.regions = b'.regions) (hd : b.devices = b'.devices) (a v : Int) :
    (b.store a v).devices = (b'.store a v).devices := by
  obtain ⟨devices, regions, log⟩ := b
  obtain ⟨devices', regions', log'⟩ := b'
  simp only at h hd
  subst h hd
  simp only [store]
  split <;> rfl

/-- What storing does to the devices does not depend on the log. -/
theorem devices_storeFrom_congr (h : b.regions = b'.regions) (hd : b.devices = b'.devices)
    (a : Int) (vs : List Int) : (b.storeFrom a vs).devices = (b'.storeFrom a vs).devices := by
  induction vs generalizing a b b' with
  | nil => exact hd
  | cons v vs ih =>
      refine ih ?_ (devices_store_congr h hd a v) (a + 1)
      rw [regions_store, regions_store, h]

end Regions

@[simp] theorem reach_store (b : Bus) (a v : Int) (n : Nat) (a' : Int) :
    (b.store a v).reach n a' = b.reach n a' :=
  reach_congr (regions_store b a v) n a'

@[simp] theorem transferFault?_store (b : Bus) (a v : Int) (n : Nat) (a' : Int) :
    (b.store a v).transferFault? n a' = b.transferFault? n a' :=
  transferFault?_congr (regions_store b a v) n a'

@[simp] theorem transferFault?_note (b : Bus) (xs : List Access) (n : Nat) (a : Int) :
    (b.note xs).transferFault? n a = b.transferFault? n a :=
  transferFault?_congr (regions_note b xs) n a

@[simp] theorem reach_note (b : Bus) (xs : List Access) (n : Nat) (a : Int) :
    (b.note xs).reach n a = b.reach n a :=
  reach_congr (regions_note b xs) n a

@[simp] theorem bytesFrom_note (b : Bus) (xs : List Access) (n : Nat) (a : Int) :
    (b.note xs).bytesFrom n a = b.bytesFrom n a :=
  bytesFrom_congr (regions_note b xs) (devices_note b xs) n a

/-! ### Storing at consecutive addresses -/

@[simp] theorem regions_storeFrom (b : Bus) (a : Int) (vs : List Int) :
    (b.storeFrom a vs).regions = b.regions := by
  induction vs generalizing a b with
  | nil => rfl
  | cons v vs ih => rw [storeFrom, ih, regions_store]

@[simp] theorem log_storeFrom (b : Bus) (a : Int) (vs : List Int) :
    (b.storeFrom a vs).log = b.log := by
  induction vs generalizing a b with
  | nil => rfl
  | cons v vs ih => rw [storeFrom, ih, log_store]

@[simp] theorem shape_storeFrom (b : Bus) (a : Int) (vs : List Int) :
    (b.storeFrom a vs).shape = b.shape := by
  induction vs generalizing a b with
  | nil => rfl
  | cons v vs ih => rw [storeFrom, ih, shape_store]

theorem storeFrom_note (b : Bus) (xs : List Access) (a : Int) (vs : List Int) :
    (b.note xs).storeFrom a vs = (b.storeFrom a vs).note xs := by
  induction vs generalizing a b with
  | nil => rfl
  | cons v vs ih => rw [storeFrom, storeFrom, store_note, ih]

/-- Writing bytes at consecutive addresses of a backed bus stores those before the first address
that no region covers, logs them, and ends in the fault of the transfer. -/
theorem writeFrom_eq (hb : b.Backed) (a : Int) {vs : List Int}
    (bytes : ∀ v ∈ vs, 0 ≤ v ∧ v ≤ 255) :
    writeFrom a vs b =
      (answer () (b.transferFault? vs.length a),
        (b.storeFrom a (vs.take (b.reach vs.length a))).note
          (writes a (vs.take (b.reach vs.length a)))) := by
  induction vs generalizing a b with
  | nil => simp [writeFrom, transferFault?, storeFrom, writes]
  | cons v vs ih =>
      by_cases mapped : b.Maps a
      · have hv := bytes v List.mem_cons_self
        have rest := ih (b := (b.store a v).note [⟨.write, a, v⟩])
          (by simpa using hb.store a v) (a + 1) fun w hw => bytes w (List.mem_cons_of_mem _ hw)
        simp only [writeFrom, Attempt.bind_apply, write_of_maps hb mapped hv, rest]
        simp [transferFault?, reach, mapped, storeFrom, writes, storeFrom_note]
      · simp [writeFrom, write_of_not_maps mapped, transferFault?, reach, mapped, storeFrom, writes]

/-! ### When storing changes nothing -/

/-- The value that storing at the addresses from `a` on leaves at a location, if it stores there. -/
def lastAt? (b : Bus) (l : Location) : Int → List Int → Option Int
  | _, [] => none
  | a, v :: vs =>
    match b.lastAt? l (a + 1) vs with
    | some w => some w
    | none => if b.location? a = some l then some v else none

theorem location?_congr {b' : Bus} (h : b.regions = b'.regions) (a : Int) :
    b.location? a = b'.location? a := by
  rw [location?, location?, h]

theorem lastAt?_congr {b' : Bus} (h : b.regions = b'.regions) (l : Location) (a : Int)
    (vs : List Int) : b.lastAt? l a vs = b'.lastAt? l a vs := by
  induction vs generalizing a with
  | nil => rfl
  | cons v vs ih =>
      rw [lastAt?, lastAt?, ih, location?_congr h]

/-- Storing leaves nothing at a location that none of its addresses leads to. -/
theorem lastAt?_eq_none_iff {l : Location} {a : Int} {vs : List Int} :
    b.lastAt? l a vs = none ↔ ∀ j < vs.length, b.location? (a + j) ≠ some l := by
  induction vs generalizing a with
  | nil => simp [lastAt?]
  | cons w vs ih =>
      have split : b.lastAt? l a (w :: vs) = none ↔
          b.location? a ≠ some l ∧ b.lastAt? l (a + 1) vs = none := by
        rw [lastAt?]
        cases b.lastAt? l (a + 1) vs <;> simp
      rw [split, ih]
      constructor
      · rintro ⟨here, later⟩ j hj
        cases j with
        | zero => simpa using here
        | succ j =>
            rw [show a + ((j + 1 : Nat) : Int) = a + 1 + (j : Int) by omega]
            exact later j (by simpa using hj)
      · intro all
        refine ⟨by simpa using all 0 (by simp), fun j hj => ?_⟩
        rw [show a + 1 + (j : Int) = a + ((j + 1 : Nat) : Int) by omega]
        exact all (j + 1) (by simpa using hj)

/-- The value left at a location is the last of those stored at the addresses that lead there. -/
theorem lastAt?_eq_some_iff {l : Location} {a v : Int} {vs : List Int} :
    b.lastAt? l a vs = some v ↔
      ∃ k : Nat, vs[k]? = some v ∧ b.location? (a + k) = some l ∧
        ∀ j : Nat, k < j → j < vs.length → b.location? (a + j) ≠ some l := by
  induction vs generalizing a with
  | nil => simp [lastAt?]
  | cons w vs ih =>
      have shift (k : Nat) : a + 1 + (k : Int) = a + ((k + 1 : Nat) : Int) := by omega
      -- A later value counts; the first one does where no later one is stored there.
      have split : b.lastAt? l a (w :: vs) = some v ↔ b.lastAt? l (a + 1) vs = some v ∨
          b.lastAt? l (a + 1) vs = none ∧ b.location? a = some l ∧ w = v := by
        rw [lastAt?]
        cases b.lastAt? l (a + 1) vs <;> simp
      rw [split, ih, lastAt?_eq_none_iff]
      constructor
      · rintro (⟨k, value, here, final⟩ | ⟨final, here, rfl⟩)
        · refine ⟨k + 1, by simpa using value, by rw [← shift]; exact here, fun j hj hlen => ?_⟩
          cases j with
          | zero => omega
          | succ j =>
              rw [← shift]
              exact final j (by omega) (by simpa using hlen)
        · refine ⟨0, rfl, by simpa using here, fun j hj hlen => ?_⟩
          cases j with
          | zero => omega
          | succ j =>
              rw [← shift]
              exact final j (by simpa using hlen)
      · rintro ⟨k, value, here, final⟩
        cases k with
        | zero =>
            refine .inr ⟨fun j hj => ?_, by simpa using here, by simpa using value⟩
            rw [shift]
            exact final (j + 1) (by omega) (by simpa using hj)
        | succ k =>
            refine .inl ⟨k, by simpa using value, by rw [shift]; exact here, fun j hj hlen => ?_⟩
            rw [shift]
            exact final (j + 1) (by omega) (by simpa using hlen)

/-- After storing, a location holds the value left there, or its old byte. -/
theorem byteAt_storeFrom (hb : b.Backed) (l : Location) (a : Int) (vs : List Int) :
    (b.storeFrom a vs).byteAt l =
      match b.lastAt? l a vs with
      | some v => UInt8.ofNat v.toNat
      | none => b.byteAt l := by
  induction vs generalizing a b with
  | nil => rfl
  | cons v vs ih =>
      rw [storeFrom, ih (hb.store a v), lastAt?_congr (regions_store b a v), lastAt?]
      cases b.lastAt? l (a + 1) vs with
      | some w => rfl
      | none =>
          by_cases mapped : b.Maps a
          · obtain ⟨l', h⟩ := maps_iff.mp mapped
            simp only [byteAt_store hb h, h, Option.some.injEq]
            by_cases eq : l = l'
            · simp [eq]
            · simp [eq, Ne.symm eq]
          · simp [store_of_not_maps mapped, location?_eq_none_iff.mpr mapped]

/-- Each address from `a` on already holds the value that is to be stored there, unless a later one
leads to the same cell. -/
def Settled (b : Bus) (a : Int) (vs : List Int) : Prop :=
  ∀ (k : Nat) (v : Int), vs[k]? = some v →
    (∀ j : Nat, k < j → j < vs.length → b.location? (a + j) ≠ b.location? (a + k)) →
      b.peek? (a + k) = .ok (UInt8.ofNat v.toNat)

/-- Storing at covered addresses leaves memory as it was exactly when each of them already holds
what is stored there last. -/
theorem storeFrom_devices_eq_iff (hb : b.Backed) {a : Int} {vs : List Int}
    (mapped : ∀ k < vs.length, b.Maps (a + k)) :
    (b.storeFrom a vs).devices = b.devices ↔ b.Settled a vs := by
  constructor
  · intro same k v value final
    have hk : k < vs.length := (List.getElem?_eq_some_iff.mp value).1
    obtain ⟨l, here⟩ := maps_iff.mp (mapped k hk)
    have last : b.lastAt? l a vs = some v :=
      lastAt?_eq_some_iff.mpr ⟨k, value, here, fun j hj hlen => here ▸ final j hj hlen⟩
    have byte : (b.storeFrom a vs).byteAt l = UInt8.ofNat v.toNat := by
      rw [byteAt_storeFrom hb, last]
    rw [peek?_of_location hb here, ← byte, byteAt, byteAt, same]
  · intro settled
    refine devices_eq_of_byteAt (shape_storeFrom b a vs) fun l => ?_
    rw [byteAt_storeFrom hb]
    cases last : b.lastAt? l a vs with
    | none => rfl
    | some v =>
        obtain ⟨k, value, here, final⟩ := lastAt?_eq_some_iff.mp last
        have held := settled k v value fun j hj hlen => here ▸ final j hj hlen
        rw [peek?_of_location hb here, Except.ok.injEq] at held
        exact held.symm

end Bus

end Chip8
