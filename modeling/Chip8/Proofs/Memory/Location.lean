import Chip8.Memory.Bus

/-!
The bytes behind the addresses of a bus.

A bus is *backed* when each of its regions leads to a memory with one cell for each address of the
region; registration makes no other regions for memories (`Bus.OfRams.backed`). On a backed bus an
address fails exactly when no region covers it, and reading and writing are a byte view over
locations: `peek?_eq`, `writeFault?_eq` and `byteAt_store`. Two buses of one shape with the same
bytes are the same (`devices_eq_of_byteAt`).
-/

namespace Chip8

/-! ### Locations -/

/-- An address that leads somewhere leads through a region that covers it. -/
theorem exists_region_of_locate? {rs : List Region} {a : Int} {l : Location}
    (h : locate? rs a = some l) :
    ∃ r ∈ rs, r.Covers a ∧ l = ⟨r.device, a - r.first⟩ := by
  induction rs with
  | nil => simp [locate?] at h
  | cons r rs ih =>
      by_cases covers : r.Covers a
      · simp only [locate?, if_pos covers, Option.some.injEq] at h
        exact ⟨r, List.mem_cons_self, covers, h.symm⟩
      · simp only [locate?, if_neg covers] at h
        obtain ⟨r', mem, covers', eq⟩ := ih h
        exact ⟨r', List.mem_cons_of_mem _ mem, covers', eq⟩

theorem locate?_isSome {rs : List Region} {a : Int} :
    (locate? rs a).isSome ↔ ∃ r ∈ rs, r.Covers a := by
  induction rs with
  | nil => simp [locate?]
  | cons r rs ih =>
      by_cases covers : r.Covers a
      · simp [locate?, covers]
      · simp [locate?, covers, ih]

namespace Bus

/-- Whether some region covers an address. -/
def Maps (b : Bus) (a : Int) : Prop := ∃ r ∈ b.regions, r.Covers a

instance (b : Bus) (a : Int) : Decidable (b.Maps a) :=
  inferInstanceAs (Decidable (∃ r ∈ b.regions, r.Covers a))

theorem location?_eq_none_iff {b : Bus} {a : Int} : b.location? a = none ↔ ¬ b.Maps a := by
  rw [Maps, ← locate?_isSome, location?]
  cases locate? b.regions a <;> simp

/-- An address is mapped exactly if it leads somewhere. -/
theorem maps_iff {b : Bus} {a : Int} : b.Maps a ↔ ∃ l, b.location? a = some l := by
  rw [Maps, ← locate?_isSome, location?, Option.isSome_iff_exists]

theorem foldl_max_le_iff {start n : Nat} {xs : List Nat} :
    xs.foldl max start ≤ n ↔ start ≤ n ∧ ∀ x ∈ xs, x ≤ n := by
  induction xs generalizing start with
  | nil => simp
  | cons x xs ih =>
      rw [List.foldl_cons, ih, Nat.max_le, List.forall_mem_cons, and_assoc]

/-- The mapped addresses end before a bound exactly when every region does. -/
theorem mappedEnd_le_iff {b : Bus} {n : Nat} : b.mappedEnd ≤ n ↔ ∀ r ∈ b.regions, r.last < n := by
  rw [mappedEnd, foldl_max_le_iff, List.forall_mem_map]
  exact and_iff_right (Nat.zero_le n)

theorem lt_mappedEnd {b : Bus} {a : Int} (h : b.Maps a) : a < b.mappedEnd := by
  obtain ⟨r, mem, _, high⟩ := h
  have last : r.last < b.mappedEnd := mappedEnd_le_iff.mp (Nat.le_refl _) r mem
  omega

/-! ### Backed buses -/

/-- Every region leads to a memory with one cell for each of its addresses. -/
def Backed (b : Bus) : Prop :=
  ∀ r ∈ b.regions, ∃ m : Ram, b.devices[r.device]? = some (.ram m) ∧ r.first + m.size = r.last + 1

/-- On a backed bus an address leads to a cell of a memory. -/
theorem Backed.cell {b : Bus} (hb : b.Backed) {a : Int} {l : Location}
    (h : b.location? a = some l) :
    ∃ m : Ram, b.devices[l.device]? = some (.ram m) ∧ 0 ≤ l.offset ∧ l.offset < m.size := by
  obtain ⟨r, mem, covers, rfl⟩ := exists_region_of_locate? h
  obtain ⟨m, device, size⟩ := hb r mem
  obtain ⟨low, high⟩ := covers
  exact ⟨m, device, by simp only; omega, by simp only; omega⟩

/-- On a backed bus the mapped addresses end before a bound exactly when each of them lies below
it. -/
theorem Backed.mappedEnd_le_iff {b : Bus} (hb : b.Backed) {n : Nat} :
    b.mappedEnd ≤ n ↔ ∀ a, b.Maps a → a < n := by
  constructor
  · intro bound a mapped
    have below := lt_mappedEnd mapped
    omega
  · intro bound
    rw [Bus.mappedEnd_le_iff]
    intro r mem
    obtain ⟨m, _, size⟩ := hb r mem
    have nonempty : 0 < m.size := m.nonempty
    have last : b.Maps r.last := ⟨r, mem, by omega, Int.le_refl _⟩
    have below := bound r.last last
    omega

/-- Where the addresses below a bound are mapped and no others, they end there. -/
theorem Backed.mappedEnd_eq {b : Bus} (hb : b.Backed) {bound : Int} (positive : 0 ≤ bound)
    (covered : ∀ a, b.Maps a ↔ 0 ≤ a ∧ a < bound) : (b.mappedEnd : Int) = bound := by
  have above : b.mappedEnd ≤ bound.toNat := by
    rw [hb.mappedEnd_le_iff]
    intro a mapped
    have inside := (covered a).mp mapped
    omega
  rcases Int.lt_or_le 0 bound with some | none
  · have last := lt_mappedEnd ((covered (bound - 1)).mpr ⟨by omega, by omega⟩)
    omega
  · omega

/-- Where the mapped addresses of a backed bus end depends only on which they are. -/
theorem mappedEnd_congr {b c : Bus} (hb : b.Backed) (hc : c.Backed)
    (maps : ∀ a, b.Maps a ↔ c.Maps a) : b.mappedEnd = c.mappedEnd := by
  apply Nat.le_antisymm
  · rw [hb.mappedEnd_le_iff]
    exact fun a mapped => lt_mappedEnd ((maps a).mp mapped)
  · rw [hc.mappedEnd_le_iff]
    exact fun a mapped => lt_mappedEnd ((maps a).mpr mapped)

/-- The byte at a location; zero where there is no cell. -/
def byteAt (b : Bus) (l : Location) : UInt8 :=
  match b.devices[l.device]? with
  | some d => ((d.read? l.offset).toOption).getD 0
  | none => 0

end Bus

namespace Ram

variable {m : Ram}

/-- A memory answers for each of its cells. -/
theorem read?_of_lt {a : Int} (h0 : 0 ≤ a) (h : a < m.size) :
    m.read? a = .ok (m.cells.getD a.toNat 0) := by
  have ha : a.toNat < m.cells.size := by
    have : m.size = m.cells.size := rfl
    omega
  simp [read?, Cells.read?, h0, ha]

/-- A memory takes a byte at each of its cells, and no other value. -/
theorem writeFault?_of_lt {a v : Int} (h0 : 0 ≤ a) (h : a < m.size) :
    m.writeFault? a v = if 0 ≤ v ∧ v ≤ 255 then none else some (.notAByte v) := by
  have covers : m.cells.Covers a := ⟨h0, h⟩
  by_cases hv : 0 ≤ v ∧ v ≤ 255
  · simp [writeFault?, Cells.writeFault?, covers, hv]
  · simp [writeFault?, Cells.writeFault?, covers, hv]

end Ram

namespace Bus

variable {b : Bus}

theorem target?_eq_none {a : Int} (h : ¬ b.Maps a) : b.target? a = none := by
  rw [target?, location?_eq_none_iff.mpr h, Option.bind_none]

theorem peek?_of_not_maps {a : Int} (h : ¬ b.Maps a) : b.peek? a = .error (.unmapped a) := by
  simp [peek?, target?_eq_none h]

/-- An address that can be read is covered. -/
theorem maps_of_peek? {a : Int} {byte : UInt8} (h : b.peek? a = .ok byte) : b.Maps a := by
  by_cases mapped : b.Maps a
  · exact mapped
  · rw [peek?_of_not_maps mapped] at h
    cases h

/-- A look at a mapped address shows the byte that it leads to. -/
theorem peek?_of_location (hb : b.Backed) {a : Int} {l : Location} (h : b.location? a = some l) :
    b.peek? a = .ok (b.byteAt l) := by
  obtain ⟨m, device, low, high⟩ := hb.cell h
  simp [peek?, target?, h, device, Device.read?, Ram.read?_of_lt low high, byteAt,
    Except.toOption]

/-- On a backed bus an address can be read exactly when some region covers it. -/
theorem peek?_eq (hb : b.Backed) (a : Int) :
    b.peek? a = match b.location? a with
      | some l => .ok (b.byteAt l)
      | none => .error (.unmapped a) := by
  cases h : b.location? a with
  | some l => exact peek?_of_location hb h
  | none => exact peek?_of_not_maps (location?_eq_none_iff.mp h)

theorem writeFault?_of_not_maps {a v : Int} (h : ¬ b.Maps a) :
    b.writeFault? a v = some (.unmapped a) := by
  simp [writeFault?, target?_eq_none h]

/-- On a backed bus a byte can be written exactly where some region covers the address. -/
theorem writeFault?_eq (hb : b.Backed) {a v : Int} (h : b.Maps a) :
    b.writeFault? a v = if 0 ≤ v ∧ v ≤ 255 then none else some (.notAByte v) := by
  obtain ⟨l, hl⟩ := maps_iff.mp h
  obtain ⟨m, device, low, high⟩ := hb.cell hl
  simp [writeFault?, target?, hl, device, Device.writeFault?, Ram.writeFault?_of_lt low high]

end Bus

/-! ### Storing -/

namespace Ram

variable {m : Ram}

@[simp] theorem label_store (m : Ram) (a v : Int) : (m.store a v).label = m.label := rfl

@[simp] theorem cells_store (m : Ram) (a v : Int) : (m.store a v).cells = m.cells.store a v := rfl

@[simp] theorem size_store (m : Ram) (a v : Int) : (m.store a v).size = m.size :=
  Cells.size_store m.cells a v

theorem read?_store_self {a : Int} (h0 : 0 ≤ a) (h : a < m.size) (v : Int) :
    (m.store a v).read? a = .ok (UInt8.ofNat v.toNat) := by
  have ha : a.toNat < m.cells.size := by
    have : m.size = m.cells.size := rfl
    omega
  simp [read?, Cells.read?, Cells.store, h0, ha]

theorem read?_store_ne {a a' : Int} (h0 : 0 ≤ a) (ne : a' ≠ a) (v : Int) :
    (m.store a v).read? a' = m.read? a' := by
  by_cases h : 0 ≤ a'
  · have : a.toNat ≠ a'.toNat := by omega
    simp [read?, Cells.read?, Cells.store, h, this]
  · simp [read?, Cells.read?, Cells.store, h]

end Ram

/-! ### Shapes -/

namespace Device

theorem clear_clear (d : Device) : d.clear.clear = d.clear := by
  cases d with
  | ram m => simp [clear, Ram.clear, Cells.clear]
  | display s => simp [clear, Display.clear, Cells.clear]
  | ramp => rfl

/-- Storing keeps the number of cells of a device and what it is called. -/
theorem clear_store (d : Device) (a v : Int) : (d.store a v).clear = d.clear := by
  cases d with
  | ram m => simp [store, clear, Ram.store, Ram.clear, Cells.clear]
  | display s => simp [store, clear, Display.store, Display.clear, Cells.clear]
  | ramp => rfl

theorem exists_ram_of_clear_eq {d : Device} {m : Ram} (h : (Device.ram m).clear = d.clear) :
    ∃ m' : Ram, d = .ram m' ∧ m'.size = m.size := by
  cases d with
  | ram m' =>
      simp only [clear, ram.injEq] at h
      refine ⟨m', rfl, ?_⟩
      have size := congrArg Ram.size h
      simpa [Ram.clear, Ram.size] using size.symm
  | display s => cases h
  | ramp => cases h

end Device

namespace Bus

variable {b : Bus}

@[simp] theorem regions_store (b : Bus) (a v : Int) : (b.store a v).regions = b.regions := by
  obtain ⟨devices, regions, log⟩ := b
  simp only [store]
  split <;> rfl

@[simp] theorem log_store (b : Bus) (a v : Int) : (b.store a v).log = b.log := by
  obtain ⟨devices, regions, log⟩ := b
  simp only [store]
  split <;> rfl

theorem devices_store_of_location {a : Int} {l : Location} (h : b.location? a = some l) (v : Int) :
    (b.store a v).devices = b.devices.modify l.device (·.store l.offset v) := by
  obtain ⟨devices, regions, log⟩ := b
  simp only [location?] at h
  simp only [store, h]

/-- Where no region covers the address nothing is stored. -/
theorem store_of_not_maps {a : Int} (h : ¬ b.Maps a) (v : Int) : b.store a v = b := by
  have none := location?_eq_none_iff.mpr h
  obtain ⟨devices, regions, log⟩ := b
  simp only [location?] at none
  simp only [store, none]

/-- Storing a value changes nothing of where addresses lead. -/
@[simp] theorem location?_store (b : Bus) (a v a' : Int) :
    (b.store a v).location? a' = b.location? a' := by
  simp [location?]

/-- What no access changes: the regions, and the devices but for what their cells hold. -/
def shape (b : Bus) : List Region × Array Device := (b.regions, b.devices.map Device.clear)

/-- Changing what the cells of a device hold keeps the shape of the devices. -/
theorem map_clear_modify (devices : Array Device) (k : Nat) {f : Device → Device}
    (hf : ∀ d, (f d).clear = d.clear) :
    (devices.modify k f).map Device.clear = devices.map Device.clear := by
  apply Array.ext_getElem?
  intro j
  by_cases same : k = j
  · simp [Array.getElem?_modify, same, Function.comp_def, hf]
  · simp [Array.getElem?_modify, same]

@[simp] theorem shape_store (b : Bus) (a v : Int) : (b.store a v).shape = b.shape := by
  by_cases mapped : b.Maps a
  · obtain ⟨l, h⟩ := maps_iff.mp mapped
    rw [shape, shape, regions_store, devices_store_of_location h,
      map_clear_modify _ _ fun d => d.clear_store l.offset v]
  · rw [store_of_not_maps mapped]

/-- Whether a bus is backed is a matter of its shape. -/
theorem Backed.of_shape {b' : Bus} (hb : b.Backed) (h : b'.shape = b.shape) : b'.Backed := by
  obtain ⟨regions, devices⟩ := Prod.mk.injEq _ _ _ _ ▸ h
  intro r mem
  obtain ⟨m, device, size⟩ := hb r (regions ▸ mem)
  have cleared := congrArg (fun ds => ds[r.device]?) devices
  simp only [Array.getElem?_map, device, Option.map_some] at cleared
  obtain ⟨d, device', clear⟩ := Option.map_eq_some_iff.mp cleared
  obtain ⟨m', rfl, size'⟩ := Device.exists_ram_of_clear_eq clear.symm
  exact ⟨m', device', by rw [size']; exact size⟩

theorem Backed.store (hb : b.Backed) (a v : Int) : (b.store a v).Backed :=
  hb.of_shape (shape_store b a v)

/-- A byte stored at an address is found at its location, and every other location keeps its
byte. -/
theorem byteAt_store (hb : b.Backed) {a : Int} {l : Location} (h : b.location? a = some l)
    (v : Int) (l' : Location) :
    (b.store a v).byteAt l' = if l' = l then UInt8.ofNat v.toNat else b.byteAt l' := by
  obtain ⟨m, device, low, high⟩ := hb.cell h
  simp only [byteAt, devices_store_of_location h, Array.getElem?_modify]
  by_cases same : l.device = l'.device
  · have device' : b.devices[l'.device]? = some (.ram m) := same ▸ device
    simp only [if_pos same, device', Option.map_some, Device.store, Device.read?]
    by_cases offset : l'.offset = l.offset
    · have eq : l' = l := by
        obtain ⟨d, o⟩ := l
        obtain ⟨d', o'⟩ := l'
        simp only at same offset
        rw [same, offset]
      simp [eq, Ram.read?_store_self low high, Except.toOption]
    · have ne : l' ≠ l := fun eq => offset (by rw [eq])
      rw [if_neg ne, Ram.read?_store_ne low offset]
  · have ne : l' ≠ l := fun eq => same (by rw [eq])
    simp [same, ne]

/-- A byte stored at an address is read back at every address of the same location. -/
theorem peek?_store (hb : b.Backed) {a : Int} {l : Location} (h : b.location? a = some l)
    (v a' : Int) :
    (b.store a v).peek? a' =
      if b.location? a' = some l then .ok (UInt8.ofNat v.toNat) else b.peek? a' := by
  rw [peek?_eq (hb.store a v), peek?_eq hb, location?_store]
  cases location : b.location? a' with
  | none => simp
  | some l' =>
      simp only [byteAt_store hb h, Option.some.injEq]
      by_cases same : l' = l
      · rw [if_pos same, if_pos same]
      · rw [if_neg same, if_neg same]

end Bus

/-! ### Buses with the same bytes -/

/-- Cells are determined by what they hold. -/
theorem Cells.eq_of_read? {s : Store} {cs cs' : Cells} (size : cs.size = cs'.size)
    (read : ∀ a, (cs.read? s a).toOption.getD 0 = (cs'.read? s a).toOption.getD 0) : cs = cs' := by
  apply Array.ext size
  intro k h h'
  have eq := read k
  simpa [Cells.read?, h, h', Except.toOption] using eq

/-- Devices of one shape that show the same bytes are the same. -/
theorem Device.eq_of_read? {d d' : Device} (shape : d.clear = d'.clear)
    (read : ∀ a, (d.read? a).toOption.getD 0 = (d'.read? a).toOption.getD 0) : d = d' := by
  -- Devices of different kinds have different shapes, so only equal kinds are left.
  cases d with
  | ramp => cases d' <;> simp_all [Device.clear]
  | ram m =>
      cases d' with
      | ram m' =>
          obtain ⟨cells, pos, flag⟩ := m
          obtain ⟨cells', pos', flag'⟩ := m'
          simp only [Device.clear, Ram.clear, Device.ram.injEq, Ram.mk.injEq] at shape
          obtain ⟨clear, rfl⟩ := shape
          have size : cells.size = cells'.size := by
            simpa using congrArg Array.size clear
          have eq : cells = cells' := Cells.eq_of_read? size read
          subst eq
          rfl
      | display s => simp [Device.clear] at shape
      | ramp => simp [Device.clear] at shape
  | display s =>
      cases d' with
      | ram m => simp [Device.clear] at shape
      | display s' =>
          obtain ⟨w, h, cells, hw, hh, hs⟩ := s
          obtain ⟨w', h', cells', hw', hh', hs'⟩ := s'
          simp only [Device.clear, Display.clear, Device.display.injEq, Display.mk.injEq] at shape
          obtain ⟨rfl, rfl, clear⟩ := shape
          have size : cells.size = cells'.size := by
            simpa using congrArg Array.size clear
          have eq : cells = cells' := Cells.eq_of_read? size read
          subst eq
          rfl
      | ramp => simp [Device.clear] at shape

namespace Bus

/-- Devices of one shape with the same byte at every location are the same. -/
theorem devices_eq_of_byteAt {b b' : Bus} (h : b.shape = b'.shape)
    (bytes : ∀ l, b.byteAt l = b'.byteAt l) : b.devices = b'.devices := by
  have shape : b.devices.map Device.clear = b'.devices.map Device.clear := congrArg Prod.snd h
  have size : b.devices.size = b'.devices.size := by
    simpa using congrArg Array.size shape
  apply Array.ext size
  intro k h h'
  have clear : (b.devices[k]).clear = (b'.devices[k]).clear := by
    have := congrArg (fun ds => ds[k]?) shape
    simpa [h, h'] using this
  refine Device.eq_of_read? clear fun a => ?_
  have := bytes ⟨k, a⟩
  simpa [byteAt, h, h'] using this

end Bus

end Chip8
