import Mathlib.Data.List.Induction
import Mathlib.Data.List.Infix
import Mathlib.Data.List.Nodup
import Chip8.Proofs.Debugger.Run

/-!
Edits of the list of breakpoints.

Adding and removing keep the breakpoints distinct. Putting one in the place of another does so unless
the new one stands elsewhere in the list already (`Edit.Clashes`): then the list holds it twice, and
a removal takes away only one of the two. So the breakpoints stay distinct through a sequence of
edits exactly if no edit of it clashes, and while they are distinct a removed breakpoint is gone and
stops no run (`breakpoints_distinct_iff`).
-/

namespace Chip8

namespace Breakpoint

variable {bs : List Breakpoint} {b old new : Breakpoint}

/-- A breakpoint that is added does not come up twice. -/
theorem nodup_addTo (distinct : bs.Nodup) : (addTo bs b).Nodup := by
  rw [addTo]
  split
  case isTrue => exact distinct
  case isFalse absent => exact List.nodup_append'.mpr ⟨distinct, List.nodup_singleton b, by simpa⟩

/-- After a replacement the old breakpoint is gone and the new one is there, if there was an old
one. -/
theorem mem_replaceIn (distinct : bs.Nodup) :
    b ∈ replaceIn bs old new ↔ b ∈ bs ∧ b ≠ old ∨ old ∈ bs ∧ b = new := by
  induction bs with
  | nil => simp [replaceIn]
  | cons c rest ih =>
      obtain ⟨absent, distinct⟩ := List.nodup_cons.mp distinct
      have ih := ih distinct
      rw [replaceIn]
      split <;> grind

/-- A breakpoint put in the place of another keeps the list distinct unless it stands elsewhere in
it. -/
theorem nodup_replaceIn_iff (distinct : bs.Nodup) :
    (replaceIn bs old new).Nodup ↔ ¬ (old ∈ bs ∧ new ∈ bs ∧ old ≠ new) := by
  induction bs with
  | nil => simp [replaceIn]
  | cons c rest ih =>
      obtain ⟨absent, distinct⟩ := List.nodup_cons.mp distinct
      have ih := ih distinct
      have inRest : c ∈ replaceIn rest old new ↔ _ := mem_replaceIn distinct
      rw [replaceIn]
      split <;> grind

/-- Removals take every breakpoint away exactly if the list is distinct. -/
theorem forall_not_mem_removeFrom_iff : (∀ b, b ∉ removeFrom bs b) ↔ bs.Nodup := by
  rw [List.nodup_iff_count_le_one]
  refine forall_congr' fun b => ?_
  rw [removeFrom, ← List.count_eq_zero, List.count_erase_self, Nat.sub_eq_zero_iff_le]

end Breakpoint

namespace Debugger

inductive Edit where
  | add (b : Breakpoint)
  | replace (old new : Breakpoint)
  | remove (b : Breakpoint)

/-- An edit that puts a breakpoint in the place of another one while it stands elsewhere in the
list. -/
inductive Edit.Clashes (d : Debugger) : Edit → Prop where
  | replace {old new : Breakpoint} : old ∈ d.breakpoints → new ∈ d.breakpoints → old ≠ new →
      Clashes d (.replace old new)

open Session (loop)

variable {d : Debugger} {e : Edit} {es : List Edit}

def edit (d : Debugger) : Edit → Debugger
  | .add b => d.add b
  | .replace old new => d.replace old new
  | .remove b => d.remove b

def editAll (d : Debugger) (es : List Edit) : Debugger := es.foldl edit d

theorem editAll_concat (d : Debugger) (es : List Edit) (e : Edit) :
    d.editAll (es ++ [e]) = (d.editAll es).edit e := List.foldl_concat ..

/-- An edit of distinct breakpoints leaves them distinct exactly if it does not clash. -/
theorem nodup_edit_iff (distinct : d.breakpoints.Nodup) :
    (d.edit e).breakpoints.Nodup ↔ ¬ e.Clashes d := by
  cases e with
  | add b => exact iff_of_true (Breakpoint.nodup_addTo distinct) nofun
  | replace old new =>
      refine (Breakpoint.nodup_replaceIn_iff distinct).trans (not_congr ⟨?_, ?_⟩)
      · rintro ⟨present, present', differ⟩
        exact .replace present present' differ
      · rintro ⟨present, present', differ⟩
        exact ⟨present, present', differ⟩
  | remove b => exact iff_of_true (distinct.erase b) nofun

/-- Distinct breakpoints stay so through a sequence of edits exactly if none of them clashes. -/
theorem nodup_editAll_iff (distinct : d.breakpoints.Nodup) :
    (∀ done, done <+: es → (d.editAll done).breakpoints.Nodup) ↔
      ∀ done e, done ++ [e] <+: es → ¬ e.Clashes (d.editAll done) := by
  constructor
  · intro all done e upTo
    have before := all done ((List.prefix_append done [e]).trans upTo)
    have after := all (done ++ [e]) upTo
    rw [editAll_concat] at after
    exact (nodup_edit_iff before).mp after
  · intro none done upTo
    -- From the end: the last edit acts on what the edits before it left.
    induction done using List.reverseRecOn with
    | nil => exact distinct
    | append_singleton done e ih =>
        rw [editAll_concat]
        exact (nodup_edit_iff (ih ((List.prefix_append done [e]).trans upTo))).mpr
          (none done e upTo)

/-- The breakpoints of a new debugger stay distinct through a sequence of edits exactly if none of
the edits puts one in the place of another while it stands elsewhere in the list. They are distinct
exactly if each of them is gone after its removal, and then it stops no run: a run that ends at a
breakpoint is stopped by another one. -/
theorem breakpoints_distinct_iff (c : Cpu) (es : List Edit) :
    ((∀ done, done <+: es → ((create c).editAll done).breakpoints.Nodup) ↔
      ∀ done e, done ++ [e] <+: es → ¬ e.Clashes ((create c).editAll done)) ∧
    ((∀ b, b ∉ (((create c).editAll es).remove b).breakpoints) ↔
      ((create c).editAll es).breakpoints.Nodup) ∧
    (((create c).editAll es).breakpoints.Nodup → ∀ b listener limit? budget m h t,
      Session.run listener limit? budget ⟨m, ((create c).editAll es).remove b⟩ = some (.ok h, t) →
        h.breakpoint? ≠ none →
          ∃ b' ∈ ((create c).editAll es).breakpoints, b' ≠ b ∧ b'.Stops m h.steps) := by
  refine ⟨nodup_editAll_iff List.nodup_nil, Breakpoint.forall_not_mem_removeFrom_iff, ?_⟩
  intro distinct b listener limit? budget m h t ends halted
  obtain ⟨b', mem, stops⟩ := Session.run_halts_at ends halted
  obtain ⟨other, kept⟩ := (distinct.mem_erase_iff).mp mem
  exact ⟨b', kept, other, stops⟩

/-- Two breakpoints in the loop, one of them put in the place of a third. Once the other is removed,
a run passes its place and stops at the one that was put in. -/
theorem loop_passes_removed_breakpoint :
    ∃ d t, d = (create loop.cpu).editAll
        [.add (.onPc 2), .add (.onPc 6), .replace (.onPc 6) (.onPc 0)] ∧
      d.breakpoints.Nodup ∧
      Session.run ⟨fun _ => false⟩ none 3 ⟨loop, d.remove (.onPc 2)⟩ =
        some (.ok ⟨2, some 0⟩, t) ∧
      ∃ b ∈ d.breakpoints, b ≠ .onPc 2 ∧ b.Stops loop 2 := by
  refine ⟨_, _, rfl, by decide, rfl, ?_⟩
  exact (breakpoints_distinct_iff loop.cpu _).2.2 (by decide) (.onPc 2) ⟨fun _ => false⟩ none 3 loop
    ⟨2, some 0⟩ _ rfl (by decide)

/-- A breakpoint put in the place of another while it stands in the list itself is there twice. Once
removed, it is still there and stops the loop. -/
theorem clashing_replacement_survives_removal :
    ∃ d t, d = (create loop.cpu).editAll
        [.add (.onPc 6), .add (.onPc 2), .replace (.onPc 6) (.onPc 2)] ∧
      ¬ d.breakpoints.Nodup ∧ .onPc 2 ∈ (d.remove (.onPc 2)).breakpoints ∧
      Session.run ⟨fun _ => false⟩ none 3 ⟨loop, d.remove (.onPc 2)⟩ =
        some (.ok ⟨1, some 2⟩, t) :=
  ⟨_, _, rfl, by decide, by decide, rfl⟩

end Debugger

end Chip8
