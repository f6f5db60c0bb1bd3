import Mathlib.Logic.Function.Basic
import Chip8.Proofs.Memory.Registration

/-!
The log as a record of what happened to memory.

A log can be replayed on what memory held before it: each read has to show the byte of its location,
each write stores one. Accesses to a backed bus log themselves so that replaying what they logged
leads from the bytes before them to the bytes after them (`Accessed.records`), also where regions
overlap or lead to one memory. The shape of the bus stays, so the bytes determine the memories.
-/

namespace Chip8

/-- What memory holds: a byte at each location. -/
abbrev Memory := Location → UInt8

/-- What memory holds after an access, under regions; none if a read shows another byte than the one
that is there, a written value is no byte, or the address leads nowhere. -/
def Access.replay? (rs : List Region) (memory : Memory) (x : Access) : Option Memory :=
  match locate? rs x.address with
  | none => none
  | some l =>
    match x.kind with
    | .read => if x.data = (memory l).toNat then some memory else none
    | .write =>
      if 0 ≤ x.data ∧ x.data ≤ 255 then some (Function.update memory l (UInt8.ofNat x.data.toNat))
      else none

def Memory.replay? (rs : List Region) (memory : Memory) (xs : List Access) : Option Memory :=
  xs.foldlM (Access.replay? rs) memory

namespace Memory

variable (rs : List Region) (memory : Memory)

@[simp] theorem replay?_nil : memory.replay? rs [] = some memory := rfl

@[simp] theorem replay?_cons (x : Access) (xs : List Access) :
    memory.replay? rs (x :: xs) = (x.replay? rs memory).bind fun after => after.replay? rs xs :=
  List.foldlM_cons

theorem replay?_append (xs ys : List Access) :
    memory.replay? rs (xs ++ ys) =
      (memory.replay? rs xs).bind fun after => after.replay? rs ys :=
  List.foldlM_append

end Memory

namespace Bus

variable {b b' b'' : Bus}

/-- Replaying accesses leads from the bytes of one bus to those of another of the same shape. -/
structure Records (b : Bus) (xs : List Access) (b' : Bus) : Prop where
  shape : b'.shape = b.shape
  memory : Memory.replay? b.regions b.byteAt xs = some b'.byteAt

theorem records_nil (b : Bus) : b.Records [] b := ⟨rfl, rfl⟩

theorem regions_of_shape (h : b'.shape = b.shape) : b'.regions = b.regions := congrArg Prod.fst h

/-- Accesses after accesses are replayed as one log. -/
theorem Records.append {xs ys : List Access} (first : b.Records xs b') (rest : b'.Records ys b'') :
    b.Records (xs ++ ys) b'' where
  shape := rest.shape.trans first.shape
  memory := by
    have later := rest.memory
    rw [regions_of_shape first.shape] at later
    rw [Memory.replay?_append, first.memory]
    exact later

/-- What is no byte is refused at a mapped address, and not logged. -/
theorem write_of_not_byte (hb : b.Backed) {a v : Int} (h : b.Maps a) (hv : ¬ (0 ≤ v ∧ v ≤ 255)) :
    write a v b = (.error (.notAByte v), b) := by
  simp [write, writeFault?_eq hb h, hv]

/-- A bus became another by accesses, which may have failed. -/
inductive Accessed (b : Bus) : Bus → Prop where
  | refl : Accessed b b
  | read {b' : Bus} (a : Int) : Accessed b b' → Accessed b (Bus.read a b').2
  | write {b' : Bus} (a v : Int) : Accessed b b' → Accessed b (Bus.write a v b').2

/-- Accesses after accesses are accesses. -/
theorem Accessed.trans (first : b.Accessed b') (rest : b'.Accessed b'') : b.Accessed b'' := by
  induction rest with
  | refl => exact first
  | read a _ ih => exact ih.read a
  | write a v _ ih => exact ih.write a v

theorem Accessed.shape_eq (h : b.Accessed b') : b'.shape = b.shape := by
  induction h with
  | refl => rfl
  | read a _ ih => rw [shape_read, ih]
  | write a v _ ih => rw [shape_write, ih]

/-- Accesses add to the log and take nothing away. -/
theorem Accessed.log_grows (h : b.Accessed b') : b.log.toList <+: b'.log.toList := by
  induction h with
  | refl => exact List.prefix_rfl
  | @read b' a _ ih =>
      refine ih.trans ?_
      unfold Bus.read
      cases b'.peek? a with
      | ok d => exact ⟨[⟨.read, a, d.toNat⟩], (Array.toList_push).symm⟩
      | error e => exact List.prefix_rfl
  | @write b' a v _ ih =>
      refine ih.trans ?_
      unfold Bus.write
      cases b'.writeFault? a v with
      | some e => exact List.prefix_rfl
      | none =>
          refine ⟨[⟨.write, a, v⟩], ?_⟩
          rw [record, Array.toList_push, log_store]

/-- A read can be replayed if its location holds the byte that was read. -/
theorem replay?_read {a d : Int} {l : Location} (here : b.location? a = some l) (memory : Memory) :
    Access.replay? b.regions memory ⟨.read, a, d⟩ =
      if d = (memory l).toNat then some memory else none := by
  rw [location?] at here
  simp only [Access.replay?, here]

/-- A write can be replayed if its value is a byte, which its location then holds. -/
theorem replay?_write {a v : Int} {l : Location} (here : b.location? a = some l) (memory : Memory) :
    Access.replay? b.regions memory ⟨.write, a, v⟩ =
      if 0 ≤ v ∧ v ≤ 255 then some (Function.update memory l (UInt8.ofNat v.toNat)) else none := by
  rw [location?] at here
  simp only [Access.replay?, here]

/-- A read logs the byte that it shows, or nothing where it fails. -/
theorem records_read (hb : b.Backed) (a : Int) : ∃ xs,
    (Bus.read a b).2.log.toList = b.log.toList ++ xs ∧ b.Records xs (Bus.read a b).2 := by
  by_cases mapped : b.Maps a
  · obtain ⟨l, here⟩ := maps_iff.mp mapped
    rw [read_of_location hb here]
    refine ⟨[⟨.read, a, (b.byteAt l).toNat⟩], by simp [note], rfl, ?_⟩
    rw [Memory.replay?_cons, replay?_read here, if_pos rfl]
    rfl
  · rw [read_of_not_maps mapped]
    exact ⟨[], (List.append_nil _).symm, records_nil b⟩

/-- A write logs the byte that it stores, or nothing where it fails. -/
theorem records_write (hb : b.Backed) (a v : Int) : ∃ xs,
    (Bus.write a v b).2.log.toList = b.log.toList ++ xs ∧ b.Records xs (Bus.write a v b).2 := by
  by_cases mapped : b.Maps a
  · by_cases byte : 0 ≤ v ∧ v ≤ 255
    · obtain ⟨l, here⟩ := maps_iff.mp mapped
      rw [write_of_maps hb mapped byte]
      refine ⟨[⟨.write, a, v⟩], by simp [note], shape_store b a v, ?_⟩
      rw [Memory.replay?_cons, replay?_write here, if_pos byte]
      have stored : Function.update b.byteAt l (UInt8.ofNat v.toNat) = (b.store a v).byteAt := by
        funext l'
        rw [Function.update_apply, byteAt_store hb here]
      rw [stored]
      rfl
    · rw [write_of_not_byte hb mapped byte]
      exact ⟨[], (List.append_nil _).symm, records_nil b⟩
  · rw [write_of_not_maps mapped]
    exact ⟨[], (List.append_nil _).symm, records_nil b⟩

/-- Accesses to a backed bus add to its log a record of what they did to memory. -/
theorem Accessed.records (hb : b.Backed) (h : b.Accessed b') : ∃ xs,
    b'.log.toList = b.log.toList ++ xs ∧ b.Records xs b' := by
  induction h with
  | refl => exact ⟨[], (List.append_nil _).symm, records_nil b⟩
  | @read b' a before ih =>
      obtain ⟨xs, logged, recorded⟩ := ih
      obtain ⟨ys, next, step⟩ := records_read (hb.of_shape before.shape_eq) a
      exact ⟨xs ++ ys, by rw [next, logged, List.append_assoc], recorded.append step⟩
  | @write b' a v before ih =>
      obtain ⟨xs, logged, recorded⟩ := ih
      obtain ⟨ys, next, step⟩ := records_write (hb.of_shape before.shape_eq) a v
      exact ⟨xs ++ ys, by rw [next, logged, List.append_assoc], recorded.append step⟩

end Bus

end Chip8
