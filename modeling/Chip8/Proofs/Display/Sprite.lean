import Mathlib.Algebra.BigOperators.Group.Finset.Piecewise
import Mathlib.Algebra.BigOperators.Group.Finset.Sigma
import Chip8.Proofs.Display.Pixel

/-!
What a sprite leaves on the screen, pixel by pixel.

`inversions` counts the set bits of a sprite that wrap around to a pixel, which are several where
the screen is narrower or lower than the sprite. Drawing inverts the pixel if that number is odd
(`pixel?_drawBytes`). On a binary screen a lit pixel goes dark on the way exactly if some pixel was
lit and is inverted at all, or is inverted twice (`drawBytes_hits_iff`).
-/

namespace Chip8.Display

variable {d : Display} {p q : Nat}

/-! ### Counting inversions -/

/-- A point wraps around to a pixel exactly if both of its coordinates do. -/
theorem wrappedCell_eq_iff (hp : p < d.width) {x y : Int} :
    d.wrappedCell x y = q * d.width + p ↔ x % d.width = p ∧ y % d.height = q := by
  have width := Int.natCast_pos.mpr d.width_pos
  have height := Int.natCast_pos.mpr d.height_pos
  have column := Int.emod_nonneg x (Int.ne_of_gt width)
  have columns := Int.emod_lt_of_pos x width
  have row := Int.emod_nonneg y (Int.ne_of_gt height)
  rw [wrappedCell, cell_inj (show (x % d.width).toNat < d.width by omega) hp]
  omega

/-- How many bits of a sprite of `rows` rows, with its upper left corner at a point, wrap around to
the pixel in column `p` of row `q`; `bit` tells for a row and a column whether the bit there is
set. -/
def inversions (d : Display) (x y : Int) (bit : Nat → Nat → Bool) (rows p q : Nat) : Nat :=
  ((Finset.range rows ×ˢ Finset.range 8).filter fun place =>
    bit place.1 place.2 = true ∧ (x + place.2) % d.width = p ∧ (y + place.1) % d.height = q).card

def bitOf (rows : List UInt8) (row column : Nat) : Bool := rowBit (rows.getD row 0) column

/-- Only the eight bits of each row count. -/
theorem inversions_congr {bit bit' : Nat → Nat → Bool} {rows : Nat} {x y : Int}
    (same : ∀ r < rows, ∀ k < 8, bit r k = bit' r k) :
    d.inversions x y bit rows p q = d.inversions x y bit' rows p q := by
  refine congrArg Finset.card (Finset.filter_congr ?_)
  intro place mem
  rw [Finset.mem_product, Finset.mem_range, Finset.mem_range] at mem
  rw [same place.1 mem.1 place.2 mem.2]

/-- A cell comes up in a row once for each set bit that wraps around to it. -/
theorem count_columnCells (d : Display) (x y : Int) (row : UInt8) (k : Nat) :
    (d.columnCells x y row 8 0).count k =
      ((Finset.range 8).filter fun column : Nat =>
        rowBit row column = true ∧ d.wrappedCell (x + column) y = k).card := by
  rw [columnCells, List.count, List.countP_map, List.countP_filter, List.countP_eq_length_filter]
  -- Both sides count within the same list: a set that is filtered out of a range is one.
  change _ = ((List.range 8).filter _).length
  rw [List.range_eq_range']
  congr 1
  apply List.filter_congr
  intro column _
  simp only [Function.comp_apply, Bool.decide_and, Bool.decide_eq_true, beq_eq_decide,
    Bool.and_comm]

/-- The inversions of a sprite are those of its first row and those of the rows below. -/
theorem inversions_cons (d : Display) (x y : Int) (row : UInt8) (rows : List UInt8) (p q : Nat) :
    d.inversions x y (bitOf (row :: rows)) (rows.length + 1) p q =
      ((Finset.range 8).filter fun column : Nat =>
        rowBit row column = true ∧ (x + column) % d.width = p ∧ y % d.height = q).card +
      d.inversions x (y + 1) (bitOf rows) rows.length p q := by
  have below (r : Nat) : y + ((r + 1 : Nat) : Int) = y + 1 + r := by omega
  rw [inversions, inversions, Finset.card_filter, Finset.card_filter, Finset.card_filter,
    Finset.sum_product, Finset.sum_product, Finset.sum_range_succ', Nat.add_comm]
  simp only [below, bitOf, List.getD_cons_zero, List.getD_cons_succ, Int.natCast_zero, Int.add_zero]
  rfl

/-- A sprite names the cell of a pixel as often as it inverts the pixel. -/
theorem count_spriteCells (hp : p < d.width) (x y : Int) (rows : List UInt8) :
    (d.spriteCells x y rows).count (q * d.width + p) =
      d.inversions x y (bitOf rows) rows.length p q := by
  induction rows generalizing y with
  | nil => rfl
  | cons row rows ih =>
      rw [spriteCells, List.count_append, ih, count_columnCells, List.length_cons, inversions_cons]
      simp only [wrappedCell_eq_iff hp]

/-! ### Lit pixels that go dark -/

/-- The value of some cell and the number of times that a list names it make 2 together. -/
def Collides (d : Display) (ks : List Nat) : Prop :=
  ∃ (k : Nat) (c : UInt8), d.cells[k]? = some c ∧ 2 ≤ c.toNat + ks.count k

/-- Without inversions nothing collides. -/
theorem not_collides_nil (binary : d.IsBinary) : ¬ d.Collides [] := by
  rintro ⟨k, c, cell, twice⟩
  rcases isBinary_iff.mp binary k c cell with rfl | rfl <;> simp at twice

theorem zero_xor_one : (0 : UInt8) ^^^ 1 = 1 := rfl

/-- The first inversion turns a 1 into a 0, which is a collision, and a 0 into a 1, which keeps the
value and the inversions that are left in balance. -/
theorem collides_cons_iff (binary : d.IsBinary) {k : Nat} {ks : List Nat} :
    d.Collides (k :: ks) ↔ d.cells[k]? = some 1 ∨ (d.flip k).2.Collides ks := by
  have zero : (0 : UInt8).toNat = 0 := rfl
  have one : (1 : UInt8).toNat = 1 := rfl
  constructor
  · rintro ⟨j, c, cell, twice⟩
    by_cases same : k = j
    · subst same
      rw [List.count_cons_self] at twice
      -- The cell of the first inversion holds 0, which it turns to 1, or it holds 1 and collides.
      rcases isBinary_iff.mp binary k c cell with rfl | rfl
      · refine .inr ⟨k, 1, ?_, by omega⟩
        rw [cells_flip, if_pos rfl, cell, Option.map_some, zero_xor_one]
      · exact .inl cell
    · rw [List.count_cons_of_ne same] at twice
      refine .inr ⟨j, c, ?_, twice⟩
      rw [cells_flip, if_neg same, cell]
  · rintro (lit | ⟨j, c, cell, twice⟩)
    · refine ⟨k, 1, lit, ?_⟩
      rw [List.count_cons_self]
      omega
    · rw [cells_flip] at cell
      by_cases same : k = j
      · subst same
        rw [if_pos rfl, Option.map_eq_some_iff] at cell
        obtain ⟨old, held, rfl⟩ := cell
        refine ⟨k, old, held, ?_⟩
        rw [List.count_cons_self]
        rcases isBinary_iff.mp binary k old held with rfl | rfl
        · rw [zero_xor_one] at twice
          omega
        · omega
      · rw [if_neg same] at cell
        refine ⟨j, c, cell, ?_⟩
        rwa [List.count_cons_of_ne same]

/-- Inverting pixels of a binary screen one after the other meets a lit one exactly if they
collide. -/
theorem flipEach_hits_iff (binary : d.IsBinary) (ks : List Nat) :
    (d.flipEach ks).1 = true ↔ d.Collides ks := by
  induction ks generalizing d with
  | nil =>
      rw [flipEach_nil]
      exact iff_of_false Bool.false_ne_true (not_collides_nil binary)
  | cons k ks ih =>
      have binary' : (d.flip k).2.IsBinary := binary.flipEach [k]
      rw [flipEach_cons, Bool.or_eq_true, lit_flip_iff, ih binary', collides_cons_iff binary]

/-! ### Drawing -/

/-- Drawing a sprite inverts each pixel as often as bits of the sprite wrap around to it. -/
theorem pixel?_drawBytes (hp : p < d.width) (hq : q < d.height) (x y : Int) (rows : List UInt8) :
    ∃ old, d.pixel? p q = .ok old ∧ (d.drawBytes x y rows).2.pixel? p q =
      .ok (old ^^^ UInt8.ofNat (d.inversions x y (bitOf rows) rows.length p q % 2)) := by
  have inside := cell_lt hp hq
  refine ⟨d.cells[q * d.width + p], pixel?_eq_ok_iff.mpr (Array.getElem?_eq_getElem inside), ?_⟩
  rw [pixel?_eq_ok_iff, drawBytes_eq, width_flipEach, cells_flipEach,
    Array.getElem?_eq_getElem inside, count_spriteCells hp, Option.map_some, Option.some.injEq]
  rcases Nat.mod_two_eq_zero_or_one (d.inversions x y (bitOf rows) rows.length p q) with even | odd
  · simp [even]
  · simp [odd]

/-- Drawing a sprite on a binary screen meets a lit pixel exactly if the value of some pixel and the
number of times that it is inverted make 2 together. -/
theorem drawBytes_hits_iff (binary : d.IsBinary) (x y : Int) (rows : List UInt8) :
    (d.drawBytes x y rows).1 = true ↔
      ∃ p < d.width, ∃ q < d.height, ∃ old, d.pixel? p q = .ok old ∧
        2 ≤ old.toNat + d.inversions x y (bitOf rows) rows.length p q := by
  rw [drawBytes_eq, flipEach_hits_iff binary]
  constructor
  · rintro ⟨k, c, cell, twice⟩
    obtain ⟨p, hp, q, hq, rfl⟩ := exists_pixel (Array.getElem?_eq_some_iff.mp cell).1
    rw [count_spriteCells hp] at twice
    exact ⟨p, hp, q, hq, c, pixel?_eq_ok_iff.mpr cell, twice⟩
  · rintro ⟨p, hp, q, hq, c, pixel, twice⟩
    rw [← count_spriteCells hp] at twice
    exact ⟨q * d.width + p, c, pixel?_eq_ok_iff.mp pixel, twice⟩

end Chip8.Display
