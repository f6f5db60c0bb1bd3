import Chip8.Config
import Chip8.Proofs.Datum.Depth

/-!
Reading a configuration: entries under names, what it takes for a sequence of checks to succeed, and
what the checks promise of the result.
-/

namespace Chip8

/-! ### Entries under names -/

section Entries

variable {α : Type} {entries entries' : List (String × α)} {name : String} {value : α}

/-- Where no two entries have a name in common, what is found under a name is what stands there. -/
theorem lookup_eq_some_iff_mem (distinct : (entries.map Prod.fst).Nodup) :
    entries.lookup name = some value ↔ (name, value) ∈ entries := by
  induction entries with
  | nil => simp
  | cons entry entries ih =>
      obtain ⟨other, first⟩ := entry
      obtain ⟨fresh, rest⟩ := List.nodup_cons.mp distinct
      rw [List.lookup_cons, List.mem_cons, ← ih rest]
      by_cases same : name = other
      · subst same
        have absent : entries.lookup name ≠ some value := by
          intro found
          exact fresh (List.mem_map.mpr ⟨_, (ih rest).mp found, rfl⟩)
        simp [absent, eq_comm]
      · simp [same, beq_eq_false_iff_ne.mpr same]

theorem lookup_single (name other : String) (value : α) :
    [(name, value)].lookup other = if other = name then some value else none := by
  by_cases same : other = name
  · simp [same]
  · simp [same, List.lookup_cons, beq_eq_false_iff_ne.mpr same]

/-- Where no two entries have a name in common, their order does not matter. -/
theorem lookup_eq_of_perm (distinct : (entries.map Prod.fst).Nodup)
    (same : entries'.Perm entries) (name : String) :
    entries'.lookup name = entries.lookup name := by
  ext value
  rw [lookup_eq_some_iff_mem distinct,
    lookup_eq_some_iff_mem ((same.map Prod.fst).nodup_iff.mpr distinct), same.mem_iff]

end Entries

namespace Config

/-! ### Success and failure -/

/-- A sequence succeeds exactly if both of its parts do. -/
theorem bind_eq_ok_iff {ε α β : Type} {x : Except ε α} {f : α → Except ε β} {b : β} :
    (x >>= f) = .ok b ↔ ∃ a, x = .ok a ∧ f a = .ok b := by
  cases x with
  | ok a => simp [bind, Except.bind]
  | error e => simp [bind, Except.bind]

/-- A sequence fails with the error of the part that fails first. -/
theorem bind_eq_error_iff {ε α β : Type} {x : Except ε α} {f : α → Except ε β} {e : ε} :
    (x >>= f) = .error e ↔ x = .error e ∨ ∃ a, x = .ok a ∧ f a = .error e := by
  cases x with
  | ok a => simp [bind, Except.bind]
  | error e => simp [bind, Except.bind]

/-- A check is passed exactly if it does not fail. -/
theorem guard_eq_ok_iff {ε α β : Type} {p : Prop} [Decidable p] {e : ε} {f : α → Except ε β}
    {x : Except ε β} {b : β} :
    (if p then (do let a ← throw e; f a) else x) = .ok b ↔ ¬ p ∧ x = .ok b := by
  by_cases fails : p
  · simp [fails, throw, throwThe, MonadExceptOf.throw, bind, Except.bind]
  · simp [fails]

/-- Whether an error is a bad value. The others concern documents, whose form is broken or in which
a number is too large, and values that are too deep to be shown. -/
def Error.isBadValue : Error → Bool
  | .document (.badValue _) => true
  | .document _ | .unshown .tooDeep => false
  | _ => true

/-- What goes wrong with data of some depth is a bad value, or a value that is too deep to be shown.
The latter takes data that is deeper than what the host can show. -/
def Reported [Host] (depth : Nat) {α : Type} (x : Except Error α) : Prop :=
  ∀ e, x = .error e → e.isBadValue ∨ e = .unshown .tooDeep ∧ Host.depth < depth

section Reported

variable [Host] {α β : Type} {depth depth' : Nat}

theorem reported_ok (depth : Nat) (a : α) : Reported depth (.ok a) := by
  intro e h
  cases h

theorem Reported.mono {x : Except Error α} (h : Reported depth x) (deeper : depth ≤ depth') :
    Reported depth' x := by
  intro e failed
  rcases h e failed with bad | ⟨deep, below⟩
  · exact .inl bad
  · exact .inr ⟨deep, Nat.lt_of_lt_of_le below deeper⟩

/-- What goes wrong in a sequence goes wrong in one of its parts. -/
theorem Reported.bind {x : Except Error α} {f : α → Except Error β} (h : Reported depth x)
    (h' : ∀ a, x = .ok a → Reported depth (f a)) : Reported depth (x >>= f) := by
  intro e failed
  rcases bind_eq_error_iff.mp failed with first | ⟨a, done, later⟩
  · exact h e first
  · exact h' a done e later

theorem Reported.guard {p : Prop} [Decidable p] {bad : Error} {f : β → Except Error α}
    {x : Except Error α} (h : bad.isBadValue) (h' : Reported depth x) :
    Reported depth (if p then (do let b ← throw bad; f b) else x) := by
  intro e failed
  by_cases fails : p
  · rw [if_pos fails] at failed
    cases failed
    exact .inl h
  · rw [if_neg fails] at failed
    exact h' e failed

/-- A fold fails where one of its steps does. -/
theorem Reported.foldlM {items : List α} {f : β → α → Except Error β}
    (each : ∀ a ∈ items, ∀ b, Reported depth (f b a)) (b : β) :
    Reported depth (items.foldlM f b) := by
  induction items generalizing b with
  | nil => exact reported_ok _ b
  | cons a items ih =>
      obtain ⟨first, rest⟩ := List.forall_mem_cons.mp each
      rw [List.foldlM_cons]
      exact (first b).bind fun next _ => ih rest next

theorem Reported.mapM {items : List α} {f : α → Except Error β}
    (each : ∀ a ∈ items, Reported depth (f a)) : Reported depth (items.mapM f) := by
  induction items with
  | nil => exact reported_ok _ []
  | cons a items ih =>
      obtain ⟨first, rest⟩ := List.forall_mem_cons.mp each
      rw [List.mapM_cons]
      exact first.bind fun b _ => (ih rest).bind fun bs _ => reported_ok _ (b :: bs)

theorem shownText_eq_ok_iff {d : Datum} {text : String} :
    shownText d = .ok text ↔ d.obstacle? = none ∧ d.outerText = text := by
  unfold shownText
  cases d.obstacle? <;> simp

/-- What cannot be shown is too long, which is a bad value, or too deep. -/
theorem reported_shownText (d : Datum) : Reported d.depth (shownText d) := by
  intro e failed
  unfold shownText at failed
  cases met : d.obstacle? with
  | none => simp [met] at failed
  | some obstacle =>
      simp only [met, Except.error.injEq] at failed
      subst failed
      cases obstacle with
      | tooLong => exact .inl rfl
      | tooDeep => exact .inr ⟨rfl, Datum.lt_depth_of_obstacle? met⟩

/-- A text that is no integer is a bad value. -/
theorem isBadValue_of_integer_text {s : String} {e : Error}
    (failed : integer (.text s) = .error e) : e.isBadValue := by
  rw [integer] at failed
  split at failed <;> cases failed
  rfl

/-- A value that stands for no integer is a bad value, unless it is too deep for its error to show
it. -/
theorem reported_integer (d : Datum) : Reported d.depth (integer d) := by
  unfold integer
  split
  · exact reported_ok _ _
  · exact fun e failed => .inl (isBadValue_of_integer_text failed)
  · refine (reported_shownText d).bind fun text _ e failed => ?_
    cases failed
    exact .inl rfl

end Reported

/-! ### What was checked -/

/-- What the checks let through: a program start inside memory, and timers that tick. -/
structure Checked (config : Config) : Prop where
  start_nonneg : 0 ≤ config.programStart
  start_lt : config.programStart < config.memorySize
  cycles_pos : 0 < config.cyclesPerTick

theorem checked_default : default.Checked := ⟨by decide, by decide, by decide⟩

theorem checked_of_ofEntries [Host] {entries : List (Datum × Datum)} {config : Config}
    (h : ofEntries entries = .ok config) : config.Checked := by
  simp only [ofEntries, bind_eq_ok_iff, guard_eq_ok_iff] at h
  obtain ⟨_, _, memory, _, size, _, start, _, font, _, _, inside, h⟩ := h
  obtain ⟨display, _, width, _, height, _, timing, _, cycles, _, ticks, h⟩ := h
  obtain ⟨initial, _, pc, _, named, _, registers, _, seed, _, h⟩ := h
  cases h
  obtain ⟨low, high⟩ := Decidable.not_not.mp inside
  exact ⟨low, high, Int.not_le.mp ticks⟩

/-- A configuration that was read has passed the checks. -/
theorem checked_of_ofDatum [Host] {data : Datum} {config : Config}
    (h : (ofDatum data).result = .ok config) : config.Checked := by
  cases data with
  | map entries => exact checked_of_ofEntries h
  | _ => cases h

theorem programStart_of_ofDatum [Host] {data : Datum} {config : Config}
    (h : (ofDatum data).result = .ok config) :
    0 ≤ config.programStart ∧ config.programStart < config.memorySize :=
  ⟨(checked_of_ofDatum h).start_nonneg, (checked_of_ofDatum h).start_lt⟩

end Config

end Chip8
