import Chip8.Proofs.Memory.Clear
import Chip8.Proofs.Memory.Replay

/-!
A bus of memories as a map from locations to bytes.

A *history* is a sequence of requests to one bus over memories that were fresh at its start, each
with its answer. What the bus answers next is read off the history alone (`refines_byte_map`): the
regions that were registered say where an address leads (`place`), and the writes since the memories
were last cleared what it holds there (`held`). `Reflects` is the agreement of a bus with a history;
every request keeps it (`Reflects.step`).
-/

namespace Chip8.Bus

/-- What can be asked of a bus over `n` devices. -/
inductive Request (n : Nat) where
  | register (first last : Int) (device : Fin n)
  | read (address : Int)
  | peek (address : Int)
  | write (address value : Int)
  | clear
  | takeLog
  deriving DecidableEq, Repr

inductive Answer where
  | done
  | byte (value : UInt8)
  | log (accesses : Array Access)
  deriving DecidableEq, Repr

def serve {n : Nat} : Request n → Attempt Bus Answer
  | .register first last device => (fun _ => .done) <$> Bus.register first last device
  | .read a => Answer.byte <$> Bus.read a
  | .peek a => Answer.byte <$> Attempt.ask (·.peek? a)
  | .write a v => (fun _ => .done) <$> Bus.write a v
  | .clear => (fun _ => .done) <$> Attempt.update Bus.clear
  | .takeLog => Answer.log <$> Bus.takeLog

def Request.address? {n : Nat} : Request n → Option Int
  | .read a | .peek a | .write a _ => some a
  | .register _ _ _ | .clear | .takeLog => none

/-- A request that was served, with its answer. -/
structure Entry (n : Nat) where
  request : Request n
  answer : Except Fault Answer

/-- The bus after a history over memories, the latest entry first. -/
inductive History (rams : List Ram) : List (Entry rams.length) → Bus → Prop where
  | start : History rams [] ⟨(rams.map Device.ram).toArray, [], #[]⟩
  | serve {past : List (Entry rams.length)} {b : Bus} (r : Request rams.length) :
      History rams past b → History rams (⟨r, (Bus.serve r b).1⟩ :: past) (Bus.serve r b).2

/-! ### What a history says -/

section Past

variable {n : Nat}

/-- The regions that were registered, in order. -/
def registered : List (Entry n) → List Region
  | [] => []
  | ⟨.register first last device, .ok _⟩ :: past =>
    registered past ++ [⟨first.toNat, last.toNat, device⟩]
  | _ :: past => registered past

/-- Where an address leads: to the earliest region that covers it. -/
def place (past : List (Entry n)) (a : Int) : Option Location :=
  ((registered past).find? fun r => r.Covers a).map fun r => ⟨r.device, a - r.first⟩

/-- The byte written last at a location, by whatever address; zero if there was none since the start
or since the memories were cleared. -/
def held : List (Entry n) → Location → UInt8
  | [], _ => 0
  | ⟨.write a v, .ok _⟩ :: past, l =>
    if place past a = some l then UInt8.ofNat v.toNat else held past l
  | ⟨.clear, _⟩ :: _, _ => 0
  | _ :: past, l => held past l

/-- What reading an address has to answer. -/
def reading (past : List (Entry n)) (a : Int) : Except Fault UInt8 :=
  match place past a with
  | some l => .ok (held past l)
  | none => .error (.unmapped a)

/-- The accesses that succeeded, in order. -/
def accesses : List (Entry n) → List Access
  | [] => []
  | ⟨.read a, .ok (.byte value)⟩ :: past => accesses past ++ [⟨.read, a, value.toNat⟩]
  | ⟨.write a v, .ok _⟩ :: past => accesses past ++ [⟨.write, a, v⟩]
  | _ :: past => accesses past

/-- The accesses in the logs that were taken, in order. -/
def handedOut : List (Entry n) → List Access
  | [] => []
  | ⟨.takeLog, .ok (.log taken)⟩ :: past => handedOut past ++ taken.toList
  | _ :: past => handedOut past

end Past

/-! ### A bus agrees with its history -/

/-- What a bus of memories is, as far as its history tells. -/
structure Reflects {n : Nat} (past : List (Entry n)) (b : Bus) : Prop where
  rams : b.AllRams
  fitted : b.Fitted
  devices : b.devices.size = n
  regions : b.regions = registered past
  bytes : ∀ l, b.byteAt l = held past l
  /-- Nothing was written to a memory without a region. -/
  untouched : ∀ l, l.device ∉ b.regions.map Region.device → b.byteAt l = 0
  log : handedOut past ++ b.log.toList = accesses past

theorem reflects_start {rams : List Ram} (fresh : ∀ m ∈ rams, m.Fresh) :
    Reflects ([] : List (Entry rams.length)) ⟨(rams.map Device.ram).toArray, [], #[]⟩ := by
  have zero (l : Location) : byteAt ⟨(rams.map Device.ram).toArray, [], #[]⟩ l = 0 := by
    simp only [byteAt, List.getElem?_toArray, List.getElem?_map]
    cases found : rams[l.device]? with
    | none => rfl
    | some m => exact (fresh m (List.mem_of_getElem? found)).read? l.offset
  exact {
    rams := by
      intro d mem
      obtain ⟨m, _, rfl⟩ := List.mem_map.mp (List.mem_toArray.mp mem)
      exact ⟨m, rfl⟩
    fitted := by
      intro r mem
      cases mem
    devices := by simp
    regions := rfl
    bytes := zero
    untouched := fun l _ => zero l
    log := rfl }

variable {n : Nat} {past : List (Entry n)} {b : Bus}

theorem Reflects.backed (h : Reflects past b) : b.Backed := h.fitted.backed h.rams

theorem locate?_eq_find? (rs : List Region) (a : Int) :
    locate? rs a = (rs.find? fun r => r.Covers a).map fun r => ⟨r.device, a - r.first⟩ := by
  induction rs with
  | nil => rfl
  | cons r rs ih =>
      by_cases covers : r.Covers a
      · simp [locate?, covers]
      · simp [locate?, covers, ih]

/-- An address leads where the history says. -/
theorem Reflects.location? (h : Reflects past b) (a : Int) : b.location? a = place past a := by
  rw [Bus.location?, locate?_eq_find?, h.regions, place]

/-- A look answers what the history says. -/
theorem Reflects.peek? (h : Reflects past b) (a : Int) : b.peek? a = reading past a := by
  rw [peek?_eq h.backed, h.location?, reading]
  cases place past a with
  | none => rfl
  | some l => exact congrArg Except.ok (h.bytes l)

theorem Reflects.maps_iff (h : Reflects past b) {a : Int} :
    b.Maps a ↔ ∃ l, place past a = some l := by
  rw [Bus.maps_iff, h.location?]

theorem serve_register_of_fault {first last : Int} {device : Fin n} {e : Fault}
    (fault : b.registerFault? first last device = some e) :
    serve (.register first last device) b = (.error e, b) := by
  simp only [serve, Attempt.map_apply, Bus.register, fault]
  rfl

theorem serve_register_of_fit {first last : Int} {device : Fin n}
    (fit : b.registerFault? first last device = none) :
    serve (.register first last device) b =
      (.ok .done, { b with regions := b.regions ++ [⟨first.toNat, last.toNat, device⟩] }) := by
  simp only [serve, Attempt.map_apply, Bus.register, fit]
  rfl

/-- A region is registered, or refused, in the bus and in its history alike. -/
theorem Reflects.serve_register (h : Reflects past b) (first last : Int) (device : Fin n) :
    Reflects (⟨.register first last device, (serve (.register first last device) b).1⟩ :: past)
      (serve (.register first last device) b).2 := by
  cases fault : b.registerFault? first last device with
  | some e =>
      rw [serve_register_of_fault fault]
      exact { h with }
  | none =>
      have fitted := h.fitted.register first last device
      rw [Bus.register, fault] at fitted
      rw [serve_register_of_fit fault]
      exact { h with
        fitted := fitted
        regions := congrArg (· ++ [_]) h.regions
        untouched := by
          intro l outside
          apply h.untouched l
          intro registered
          exact outside (by simpa using .inl (by simpa using registered)) }

/-- So is a read, with the byte that it is answered with. -/
theorem Reflects.serve_read (h : Reflects past b) (a : Int) :
    Reflects (⟨.read a, (serve (n := n) (.read a) b).1⟩ :: past)
      (serve (n := n) (.read a) b).2 := by
  by_cases mapped : b.Maps a
  · obtain ⟨l, here⟩ := Bus.maps_iff.mp mapped
    rw [serve, Attempt.map_apply, read_of_location h.backed here]
    exact { h with
      log := by
        simp only [note, Array.toList_append, ← List.append_assoc, h.log, handedOut]
        rfl }
  · rw [serve, Attempt.map_apply, read_of_not_maps mapped]
    exact { h with }

/-- A write that succeeds was of a byte to a mapped address. -/
theorem serve_write_cases (hb : b.Backed) (a v : Int) :
    (b.Maps a ∧ (0 ≤ v ∧ v ≤ 255) ∧
        serve (n := n) (.write a v) b = (.ok .done, (b.store a v).note [⟨.write, a, v⟩])) ∨
      (b.Maps a ∧ ¬ (0 ≤ v ∧ v ≤ 255) ∧
        serve (n := n) (.write a v) b = (.error (.notAByte v), b)) ∨
      (¬ b.Maps a ∧ serve (n := n) (.write a v) b = (.error (.unmapped a), b)) := by
  by_cases mapped : b.Maps a
  · by_cases byte : 0 ≤ v ∧ v ≤ 255
    · refine .inl ⟨mapped, byte, ?_⟩
      rw [serve, Attempt.map_apply, write_of_maps hb mapped byte]
      rfl
    · refine .inr (.inl ⟨mapped, byte, ?_⟩)
      rw [serve, Attempt.map_apply, write_of_not_byte hb mapped byte]
      rfl
  · refine .inr (.inr ⟨mapped, ?_⟩)
    rw [serve, Attempt.map_apply, write_of_not_maps mapped]
    rfl

theorem Reflects.serve_write (h : Reflects past b) (a v : Int) :
    Reflects (⟨.write a v, (serve (n := n) (.write a v) b).1⟩ :: past)
      (serve (n := n) (.write a v) b).2 := by
  rcases serve_write_cases (n := n) h.backed a v with
    ⟨mapped, _, served⟩ | ⟨_, _, served⟩ | ⟨_, served⟩
  · obtain ⟨l, here⟩ := Bus.maps_iff.mp mapped
    -- Only here anything changes: the byte at one location, and the log.
    have there : place past a = some l := by rw [← h.location?, here]
    rw [served]
    exact {
      rams := h.rams.of_shape (by simp)
      fitted := h.fitted.of_shape (by simp)
      devices := by simp [devices_store_of_location here, h.devices]
      regions := by
        rw [regions_note, regions_store]
        exact h.regions
      bytes := by
        intro l'
        rw [byteAt_note, byteAt_store h.backed here, held, there, h.bytes]
        simp only [Option.some.injEq, eq_comm]
      untouched := by
        intro l' outside
        rw [regions_note, regions_store] at outside
        have elsewhere : l' ≠ l := by
          rintro rfl
          obtain ⟨r, mem, _, rfl⟩ := exists_region_of_locate? here
          exact outside (List.mem_map_of_mem mem)
        rw [byteAt_note, byteAt_store h.backed here, if_neg elsewhere, h.untouched l' outside]
      log := by
        simp only [note, Array.toList_append, log_store, ← List.append_assoc, h.log, handedOut]
        rfl }
  · rw [served]
    exact { h with }
  · rw [served]
    exact { h with }

theorem Reflects.serve_clear (h : Reflects past b) :
    Reflects (⟨.clear, (serve (n := n) .clear b).1⟩ :: past) (serve (n := n) .clear b).2 := by
  have zero (l : Location) : b.clear.byteAt l = 0 := by
    rw [byteAt_clear h.backed]
    by_cases registered : l.device ∈ b.regions.map Region.device
    · rw [if_pos registered]
    · rw [if_neg registered, h.untouched l registered]
  rw [serve, Attempt.map_apply, Attempt.update_apply]
  exact {
    rams := h.rams.of_shape (shape_clear b)
    fitted := h.fitted.of_shape (shape_clear b)
    devices := by
      have same := congrArg (fun shape => shape.2.size) (shape_clear b)
      simpa [shape, h.devices] using same
    regions := h.regions
    bytes := zero
    untouched := fun l _ => zero l
    log := h.log }

/-- Serving a request keeps the agreement of a bus with its history. -/
theorem Reflects.step (h : Reflects past b) (r : Request n) :
    Reflects (⟨r, (Bus.serve r b).1⟩ :: past) (Bus.serve r b).2 := by
  cases r with
  | register first last device => exact h.serve_register first last device
  | read a => exact h.serve_read a
  | peek a =>
      rw [Bus.serve, Attempt.map_apply, Attempt.ask_apply]
      exact { h with }
  | write a v => exact h.serve_write a v
  | clear => exact h.serve_clear
  | takeLog =>
      rw [Bus.serve, Attempt.map_apply, takeLog]
      exact { h with log := (List.append_nil _).trans h.log }

/-- Whatever is asked of a bus of memories, it is what its history says. -/
theorem History.reflects {rams : List Ram} (fresh : ∀ m ∈ rams, m.Fresh)
    {past : List (Entry rams.length)} {b : Bus} (history : History rams past b) :
    Reflects past b := by
  induction history with
  | start => exact reflects_start fresh
  | serve r _ ih => exact ih.step r

/-! ### What the next request is answered with -/

/-- Later requests add regions behind those that were registered. -/
theorem registered_later (later past : List (Entry n)) :
    registered past <+: registered (later ++ past) := by
  induction later with
  | nil => exact List.prefix_rfl
  | cons entry later ih =>
      obtain ⟨request, answer⟩ := entry
      cases request with
      | register first last device =>
          cases answer with
          | ok _ => exact ih.trans (List.prefix_append _ _)
          | error _ => exact ih
      | _ => exact ih

/-- No later request moves an address that leads somewhere. -/
theorem place_later {a : Int} {l : Location} (h : place past a = some l)
    (later : List (Entry n)) : place (later ++ past) a = some l := by
  obtain ⟨added, extended⟩ := registered_later later past
  obtain ⟨r, found, here⟩ := Option.map_eq_some_iff.mp h
  rw [place, ← extended, List.find?_append, found, Option.some_or, Option.map_some, here]

/-- A region is refused only for a bad value. -/
theorem Reflects.kind_of_registerFault? (h : Reflects past b) {first last : Int} {device : Fin n}
    {e : Fault} (fault : b.registerFault? first last device = some e) : e.kind = .badValue := by
  have inside : device.val < b.devices.size := h.devices ▸ device.isLt
  obtain ⟨m, ram⟩ := h.rams b.devices[device.val] (Array.getElem_mem inside)
  rw [registerFault?, Array.getElem?_eq_getElem inside, ram] at fault
  split at fault
  · cases fault
    rfl
  · simp only [Device.store?, Option.ite_none_left_eq_some, Option.some.injEq] at fault
    obtain ⟨_, rfl⟩ := fault
    rfl

/-- A request that fails changes nothing. Its fault is a memory access if its address leads nowhere,
and a bad value otherwise. -/
theorem Reflects.serve_fault (h : Reflects past b) {r : Request n} {e : Fault}
    (fault : (Bus.serve r b).1 = .error e) :
    (Bus.serve r b).2 = b ∧
      (e.kind = .memoryAccess ↔ ∃ a, r.address? = some a ∧ place past a = none) ∧
      (e.kind = .memoryAccess ∨ e.kind = .badValue) := by
  have nowhere {a : Int} (unmapped : ¬ b.Maps a) : place past a = none := by
    rw [← h.location?, location?_eq_none_iff.mpr unmapped]
  cases r with
  | register first last device =>
      cases refused : b.registerFault? first last device with
      | none =>
          rw [serve_register_of_fit refused] at fault
          cases fault
      | some e' =>
          rw [serve_register_of_fault refused] at fault ⊢
          cases fault
          have kind := h.kind_of_registerFault? refused
          simp [kind, Request.address?]
  | read a =>
      by_cases mapped : b.Maps a
      · obtain ⟨l, here⟩ := Bus.maps_iff.mp mapped
        rw [Bus.serve, Attempt.map_apply, read_of_location h.backed here] at fault
        cases fault
      · rw [Bus.serve, Attempt.map_apply, read_of_not_maps mapped] at fault ⊢
        cases fault
        simp [Fault.kind, Request.address?, nowhere mapped]
  | peek a =>
      by_cases mapped : b.Maps a
      · obtain ⟨l, here⟩ := Bus.maps_iff.mp mapped
        rw [Bus.serve, Attempt.map_apply, Attempt.ask_apply,
          peek?_of_location h.backed here] at fault
        cases fault
      · rw [Bus.serve, Attempt.map_apply, Attempt.ask_apply, peek?_of_not_maps mapped] at fault ⊢
        cases fault
        simp [Fault.kind, Request.address?, nowhere mapped]
  | write a v =>
      rcases serve_write_cases (n := n) h.backed a v with
        ⟨_, _, served⟩ | ⟨mapped, _, served⟩ | ⟨unmapped, served⟩
      · rw [served] at fault
        cases fault
      · obtain ⟨l, there⟩ := h.maps_iff.mp mapped
        rw [served] at fault ⊢
        cases fault
        simp [Fault.kind, Request.address?, there]
      · rw [served] at fault ⊢
        cases fault
        simp [Fault.kind, Request.address?, nowhere unmapped]
  | clear => cases fault
  | takeLog => cases fault

/-- An address can be read and looked at exactly if it leads somewhere, and then shows the byte held
there. -/
theorem Reflects.serve_reading (h : Reflects past b) (a : Int) :
    serve (n := n) (.peek a) b = ((reading past a).map .byte, b) ∧
      (serve (n := n) (.read a) b).1 = (reading past a).map .byte := by
  constructor
  · rw [Bus.serve, Attempt.map_apply, Attempt.ask_apply, h.peek?]
  · rw [Bus.serve, Attempt.map_apply, ← h.peek?, Bus.read]
    cases b.peek? a <;> rfl

/-- A write succeeds exactly if its address leads somewhere and its value is a byte. -/
theorem Reflects.serve_write_iff (h : Reflects past b) (a v : Int) :
    (serve (n := n) (.write a v) b).1 = .ok .done ↔
      (∃ l, place past a = some l) ∧ 0 ≤ v ∧ v ≤ 255 := by
  rcases serve_write_cases (n := n) h.backed a v with
    ⟨mapped, byte, served⟩ | ⟨_, noByte, served⟩ | ⟨unmapped, served⟩
  · rw [served]
    exact iff_of_true rfl ⟨h.maps_iff.mp mapped, byte⟩
  · rw [served]
    exact iff_of_false nofun fun ⟨_, byte⟩ => noByte byte
  · rw [served]
    exact iff_of_false nofun fun ⟨here, _⟩ => unmapped (h.maps_iff.mpr here)

/-- A write that succeeds changes what is read at the addresses of its location, and at no other. -/
theorem Reflects.peek?_serve_write (h : Reflects past b) {a v : Int}
    (done : (serve (n := n) (.write a v) b).1 = .ok .done) :
    ∃ byte : UInt8, (byte.toNat : Int) = v ∧
      ∀ a', (serve (n := n) (.write a v) b).2.peek? a' =
        if place past a' = place past a then .ok byte else b.peek? a' := by
  rcases serve_write_cases (n := n) h.backed a v with
    ⟨mapped, ⟨low, high⟩, served⟩ | ⟨_, _, served⟩ | ⟨_, served⟩
  · obtain ⟨l, here⟩ := Bus.maps_iff.mp mapped
    have small : v.toNat < 256 := by omega
    refine ⟨UInt8.ofNat v.toNat, ?_, ?_⟩
    · rw [UInt8.toNat_ofNat', Nat.mod_eq_of_lt small, Int.toNat_of_nonneg low]
    · intro a'
      rw [served, peek?_note, peek?_store h.backed here, ← h.location?, ← h.location?, here]
  · rw [served] at done
    cases done
  · rw [served] at done
    cases done

/-- A bus of fresh memories is a map from locations to bytes. After any requests an address leads to
the earliest region that was registered for it, reading it shows the byte written last at its
location since the memories were cleared, and a write of a byte changes exactly the addresses of
that location. A request that fails changes nothing, and no later request moves an address. The logs
that were taken and the one that is pending list the accesses that succeeded, in order. -/
theorem refines_byte_map {rams : List Ram} (fresh : ∀ m ∈ rams, m.Fresh)
    {past : List (Entry rams.length)} {b : Bus} (history : History rams past b) :
    (∀ a, b.location? a = place past a) ∧
    (∀ a, serve (n := rams.length) (.peek a) b = ((reading past a).map .byte, b) ∧
      (serve (n := rams.length) (.read a) b).1 = (reading past a).map .byte) ∧
    (∀ a v, (serve (n := rams.length) (.write a v) b).1 = .ok .done ↔
      (∃ l, place past a = some l) ∧ 0 ≤ v ∧ v ≤ 255) ∧
    (∀ a v, (serve (n := rams.length) (.write a v) b).1 = .ok .done →
      ∃ byte : UInt8, (byte.toNat : Int) = v ∧
        ∀ a', (serve (n := rams.length) (.write a v) b).2.peek? a' =
          if place past a' = place past a then .ok byte else b.peek? a') ∧
    (∀ (r : Request rams.length) e, (serve r b).1 = .error e →
      (serve r b).2 = b ∧
        (e.kind = .memoryAccess ↔ ∃ a, r.address? = some a ∧ place past a = none) ∧
        (e.kind = .memoryAccess ∨ e.kind = .badValue)) ∧
    (∀ later b', History rams (later ++ past) b' →
      ∀ a l, b.location? a = some l → b'.location? a = some l) ∧
    handedOut past ++ b.log.toList = accesses past := by
  have h := history.reflects fresh
  refine ⟨h.location?, h.serve_reading, h.serve_write_iff, fun a v => h.peek?_serve_write,
    fun r e => h.serve_fault, ?_, h.log⟩
  intro later b' after a l here
  rw [h.location?] at here
  rw [(after.reflects fresh).location?]
  exact place_later here later

/-- Two memories of two cells, the second behind a region that overlaps the first, the first also
behind a later region: a byte written through the later region is read at the address of the
first. -/
theorem write_seen_through_other_region : ∃ past b,
    History [Ram.blank 1, Ram.blank 1] past b ∧
      (serve (n := 2) (.read 0) b).1 = .ok (.byte 7) ∧
      (serve (n := 2) (.peek 1) b).1 = .ok (.byte 0) ∧
      (serve (n := 2) (.peek 3) b).1 = .error (.unmapped 3) := by
  have fresh : ∀ m ∈ [Ram.blank 1, Ram.blank 1], m.Fresh := by simp [Ram.fresh_blank]
  have fromStart : History [Ram.blank 1, Ram.blank 1] _ _ := .start
  have registered := ((fromStart.serve (.register 0 1 ⟨0, by decide⟩)).serve
    (.register 1 2 ⟨1, by decide⟩)).serve (.register 5 6 ⟨0, by decide⟩)
  have written := registered.serve (.write 5 7)
  obtain ⟨_, reads, _⟩ := refines_byte_map fresh written
  refine ⟨_, _, written, ?_, ?_, ?_⟩
  · exact (reads 0).2
  · exact congrArg Prod.fst (reads 1).1
  · exact congrArg Prod.fst (reads 3).1

end Chip8.Bus
