import Chip8.Datum.Text

/-!
How deep values lie in each other, and what that means for showing them.

What keeps a value from being shown measures its depth (`measures_depth`): a value that is too deep
to be shown is deeper than what the host can show, and one that can be shown is not. Lists nested to
any depth are an example (`innerObstacle?_nested`). What a mapping holds is less deep than itself.
-/

namespace Chip8.Datum

variable {d k v : Datum} {entries : List (Datum × Datum)} {name : String} {levels : Nat}

/-! ### Values in mappings -/

/-- No entry of a mapping is deeper than all of them. -/
theorem depth_le_of_entry (mem : (k, v) ∈ entries) :
    k.depth ≤ depthOfEntries entries ∧ v.depth ≤ depthOfEntries entries := by
  induction entries with
  | nil => cases mem
  | cons entry entries ih =>
      rcases List.mem_cons.mp mem with rfl | mem
      · simp only [depthOfEntries]
        omega
      · have below := ih mem
        simp only [depthOfEntries]
        omega

/-- The value under a name is one of the entries. -/
theorem mem_of_lookup (found : lookup name entries = some v) : (.text name, v) ∈ entries := by
  fun_induction lookup name entries with
  | case1 => cases found
  | case2 w rest =>
      cases found
      exact List.mem_cons_self
  | case3 s w rest other ih => exact List.mem_cons_of_mem _ (ih found)
  | case4 entry rest other ih => exact List.mem_cons_of_mem _ (ih found)

/-! ### What keeps values from being shown -/

/-- What is met where `levels` values may lie in each other tells whether there are more. -/
structure Measures (levels : Nat) (obstacle? : Option Obstacle) (depth : Nat) : Prop where
  deeper : obstacle? = some .tooDeep → levels < depth
  fits : obstacle? = none → depth ≤ levels

/-- Of two values beside each other the deeper one is measured. -/
theorem Measures.or {first second : Option Obstacle} {depth depth' : Nat}
    (h : Measures levels first depth) (h' : Measures levels second depth') :
    Measures levels (first.or second) (max depth depth') := by
  cases first with
  | none =>
      have below := h.fits rfl
      constructor
      · intro deep
        have := h'.deeper deep
        omega
      · intro shown
        have := h'.fits shown
        omega
  | some obstacle =>
      constructor
      · intro deep
        have := h.deeper deep
        omega
      · intro shown
        cases shown

/-- One more level for what holds the values. -/
theorem Measures.succ {obstacle? : Option Obstacle} {depth : Nat} (level : levels ≠ 0)
    (h : Measures (levels - 1) obstacle? depth) : Measures levels obstacle? (depth + 1) where
  deeper deep := by
    have := h.deeper deep
    omega
  fits shown := by
    have := h.fits shown
    omega

/-- A value that holds no others is shown on one level. -/
theorem measures_one {obstacle? : Option Obstacle} (level : levels ≠ 0)
    (shallow : obstacle? ≠ some .tooDeep) : Measures levels obstacle? 1 :=
  ⟨fun deep => absurd deep shallow, fun _ => Nat.pos_of_ne_zero level⟩

theorem momentDepth_pos (m : Moment) : 0 < momentDepth m := by
  unfold momentDepth
  split
  · exact Nat.one_pos
  · split <;> exact Nat.succ_pos _

theorem depth_pos (d : Datum) : 0 < d.depth := by
  cases d with
  | moment m => exact momentDepth_pos m
  | set items => cases items <;> exact Nat.succ_pos _
  | _ => exact Nat.succ_pos _

-- The recursion is that of the texts. Items of a set lie two levels below it, so that the level in
-- between is added by hand.
mutual

/-- A value that is too deep to be shown is deeper than what can be shown, and one that can be shown
is not. -/
theorem measures_depth (levels : Nat) (d : Datum) :
    Measures levels (d.innerObstacle? levels) d.depth := by
  by_cases none_left : levels = 0
  · subst none_left
    have positive := d.depth_pos
    unfold innerObstacle?
    exact ⟨fun _ => positive, nofun⟩
  · unfold innerObstacle?
    rw [if_neg none_left]
    cases d with
    | list items | tuple items =>
        exact (measures_depthOfItems (levels - 1) items).succ none_left
    | set items =>
        cases items with
        | nil => exact measures_one none_left nofun
        | cons d rest =>
            have inner := measures_depthOfItems (levels - 2) (d :: rest)
            have first := d.depth_pos
            refine ⟨fun deep => ?_, fun shown => ?_⟩
            · have := inner.deeper deep
              simp only [depth]
              omega
            · have := inner.fits shown
              simp only [depth, depthOfItems] at this ⊢
              omega
    | map entries => exact (measures_depthOfEntries (levels - 1) entries).succ none_left
    | moment m =>
        by_cases short : levels < momentDepth m
        · exact ⟨fun _ => short, fun shown => by simp [short] at shown⟩
        · exact ⟨fun deep => by simp [short] at deep, fun _ => Nat.not_lt.mp short⟩
    | int n =>
        refine measures_one none_left ?_
        dsimp only
        split <;> nofun
    | _ => exact measures_one none_left nofun

theorem measures_depthOfItems (levels : Nat) (items : List Datum) :
    Measures levels (itemsObstacle? levels items) (depthOfItems items) := by
  cases items with
  | nil => exact ⟨nofun, fun _ => Nat.zero_le _⟩
  | cons d rest => exact (measures_depth levels d).or (measures_depthOfItems levels rest)

theorem measures_depthOfEntries (levels : Nat) (entries : List (Datum × Datum)) :
    Measures levels (entriesObstacle? levels entries) (depthOfEntries entries) := by
  cases entries with
  | nil => exact ⟨nofun, fun _ => Nat.zero_le _⟩
  | cons entry rest =>
      obtain ⟨k, v⟩ := entry
      exact ((measures_depth levels k).or (measures_depth levels v)).or
        (measures_depthOfEntries levels rest)

end

/-- A value on its own that is too deep to be shown is deeper than what the host can show. -/
theorem lt_depth_of_obstacle? [Host] (deep : d.obstacle? = some .tooDeep) :
    Host.depth < d.depth := by
  unfold obstacle? at deep
  split at deep
  · cases deep
  · cases deep
  · cases deep
  · exact (measures_depth Host.depth d).deeper deep

/-! ### Nested lists -/

/-- Lists in each other, `inner` of them around the innermost one. -/
def nested : Nat → Datum
  | 0 => .list []
  | inner + 1 => .list [nested inner]

/-- Lists in each other are too deep where there are more of them than levels. -/
theorem innerObstacle?_nested {inner : Nat} (deep : levels ≤ inner) :
    (nested inner).innerObstacle? levels = some .tooDeep := by
  induction inner generalizing levels with
  | zero =>
      obtain rfl : levels = 0 := Nat.le_zero.mp deep
      rfl
  | succ inner ih =>
      rw [nested, innerObstacle?]
      by_cases none_left : levels = 0
      · rw [if_pos none_left]
      · rw [if_neg none_left]
        have next : (nested inner).innerObstacle? (levels - 1) = some .tooDeep := ih (by omega)
        simp only [itemsObstacle?, next, Option.some_or]

end Chip8.Datum
