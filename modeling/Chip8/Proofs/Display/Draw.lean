import Chip8.Display

/-!
Drawing as a list of inverted pixels.

A sprite inverts the pixels of its set bits one after the other (`drawRow_eq`), each of them on the
screen (`lt_of_mem_spriteCells`). After inverting a list of pixels a cell differs from before in its
lowest bit exactly if it stands in the list an odd number of times (`cells_flipEach`). So a binary
screen stays binary, the order of the pixels does not matter (`flipEach_perm`), and a screen is
unchanged exactly if each of its cells was inverted an even number of times
(`flipEach_eq_self_iff`).
-/

namespace Chip8.Display

/-! ### Inverting pixels -/

/-- Inverts pixels one after the other; the answer tells whether a lit one went dark. -/
def flipEach : List Nat → Display → Bool × Display
  | [], d => (false, d)
  | k :: ks, d =>
    match d.flip k with
    | (lit, d) =>
      match flipEach ks d with
      | (hit, d) => (lit || hit, d)

/-- The cells whose pixels the set bits of a sprite row invert, from the left: those of its columns
from `column` on, `count` of them. -/
def columnCells (d : Display) (x y : Int) (row : UInt8) (count column : Nat) : List Nat :=
  ((List.range' column count).filter (rowBit row)).map fun k : Nat => d.wrappedCell (x + k) y

/-- The cells whose pixels the rows of a sprite invert, from the top. -/
def spriteCells (d : Display) (x y : Int) : List UInt8 → List Nat
  | [] => []
  | row :: rows => d.columnCells x y row 8 0 ++ d.spriteCells x (y + 1) rows

def drawBytes (x y : Int) : List UInt8 → Display → Bool × Display
  | [], d => (false, d)
  | row :: rows, d =>
    match d.drawRow x y row with
    | (dark, d) =>
      match drawBytes x (y + 1) rows d with
      | (hit, d) => (dark || hit, d)

variable {d : Display}

@[simp] theorem width_flip (d : Display) (k : Nat) : (d.flip k).2.width = d.width := rfl

@[simp] theorem height_flip (d : Display) (k : Nat) : (d.flip k).2.height = d.height := rfl

theorem cells_flip (d : Display) (k j : Nat) :
    (d.flip k).2.cells[j]? = if k = j then d.cells[j]?.map (· ^^^ 1) else d.cells[j]? := by
  obtain ⟨width, height, cells, _, _, _⟩ := d
  simp only [flip, Array.getElem?_setIfInBounds]
  by_cases same : k = j
  · subst same
    by_cases inside : k < cells.size
    · simp [inside]
    · simp [inside]
  · simp [same]

/-- The answer tells whether the cell held 1 before. -/
theorem lit_flip_iff {k : Nat} : (d.flip k).1 = true ↔ d.cells[k]? = some 1 := by
  change (d.cells.getD k 0 == 1) = true ↔ _
  rw [beq_iff_eq, Array.getD_eq_getD_getElem?]
  cases d.cells[k]? <;> simp

/-- Screens of one size with the same cells are the same. -/
theorem ext_cells {d d' : Display} (width : d.width = d'.width) (height : d.height = d'.height)
    (cells : ∀ k : Nat, d.cells[k]? = d'.cells[k]?) : d = d' := by
  obtain ⟨w, h, cs, _, _, _⟩ := d
  obtain ⟨w', h', cs', _, _, _⟩ := d'
  obtain rfl : cs = cs' := Array.ext_getElem? cells
  simp only at width height
  subst width height
  rfl

@[simp] theorem flipEach_nil (d : Display) : d.flipEach [] = (false, d) := rfl

@[simp] theorem flipEach_cons (d : Display) (k : Nat) (ks : List Nat) :
    d.flipEach (k :: ks) =
      ((d.flip k).1 || ((d.flip k).2.flipEach ks).1, ((d.flip k).2.flipEach ks).2) := rfl

@[simp] theorem width_flipEach (d : Display) (ks : List Nat) :
    (d.flipEach ks).2.width = d.width := by
  induction ks generalizing d with
  | nil => rfl
  | cons k ks ih => rw [flipEach_cons, ih, width_flip]

@[simp] theorem height_flipEach (d : Display) (ks : List Nat) :
    (d.flipEach ks).2.height = d.height := by
  induction ks generalizing d with
  | nil => rfl
  | cons k ks ih => rw [flipEach_cons, ih, height_flip]

/-- Inverting the pixels of two lists one after the other is inverting those of both. -/
theorem flipEach_append (d : Display) (ks ls : List Nat) :
    d.flipEach (ks ++ ls) = ((d.flipEach ks).1 || ((d.flipEach ks).2.flipEach ls).1,
      ((d.flipEach ks).2.flipEach ls).2) := by
  induction ks generalizing d with
  | nil => simp
  | cons k ks ih => simp [ih, Bool.or_assoc]

/-- Inverting a pixel as often as a list names it inverts it if that number is odd. -/
theorem cells_flipEach (d : Display) (ks : List Nat) (j : Nat) :
    (d.flipEach ks).2.cells[j]? =
      d.cells[j]?.map fun c => if ks.count j % 2 = 0 then c else c ^^^ 1 := by
  induction ks generalizing d with
  | nil => simp
  | cons k ks ih =>
      rw [flipEach_cons, ih, cells_flip, List.count_cons]
      by_cases same : k = j
      · rw [if_pos same, if_pos (by simpa using same), Option.map_map]
        congr 1
        funext c
        rcases Nat.mod_two_eq_zero_or_one (ks.count j) with even | odd
        · have : (ks.count j + 1) % 2 = 1 := by omega
          simp [even, this]
        · have : (ks.count j + 1) % 2 = 0 := by omega
          simp only [odd, this, Nat.one_ne_zero, if_true, if_false, Function.comp_apply]
          rw [UInt8.xor_assoc, UInt8.xor_self, UInt8.xor_zero]
      · rw [if_neg same, if_neg (by simpa using same), Nat.add_zero]

/-- Inverting pixels changes nothing exactly if each pixel of the screen is inverted an even number
of times. -/
theorem flipEach_eq_self_iff (d : Display) (ks : List Nat) :
    (d.flipEach ks).2 = d ↔ ∀ k < d.size, ks.count k % 2 = 0 := by
  constructor
  · intro same k inside
    have cell := cells_flipEach d ks k
    have inside : k < d.cells.size := inside
    rw [same, Array.getElem?_eq_getElem inside, Option.map_some, Option.some.injEq] at cell
    by_cases even : ks.count k % 2 = 0
    · exact even
    · rw [if_neg even] at cell
      have zero : (1 : UInt8) = 0 := by
        calc (1 : UInt8) = d.cells[k] ^^^ (d.cells[k] ^^^ 1) := by
              rw [← UInt8.xor_assoc, UInt8.xor_self, UInt8.zero_xor]
          _ = 0 := by rw [← cell, UInt8.xor_self]
      cases zero
  · intro even
    refine ext_cells (width_flipEach d ks) (height_flipEach d ks) fun k => ?_
    rw [cells_flipEach]
    cases cell : d.cells[k]? with
    | none => rfl
    | some c =>
        have inside : k < d.size := (Array.getElem?_eq_some_iff.mp cell).1
        simp [even k inside]

/-- The order in which pixels are inverted does not matter. -/
theorem flipEach_perm (d : Display) {ks ls : List Nat} (perm : ks.Perm ls) :
    (d.flipEach ks).2 = (d.flipEach ls).2 := by
  apply ext_cells
  · rw [width_flipEach, width_flipEach]
  · rw [height_flipEach, height_flipEach]
  · intro k
    rw [cells_flipEach, cells_flipEach, perm.count_eq]

/-- Inverting pixels once more, in any order, undoes it. -/
theorem flipEach_flipEach_perm (d : Display) {ks ls : List Nat} (perm : ks.Perm ls) :
    ((d.flipEach ks).2.flipEach ls).2 = d := by
  have twice : ((d.flipEach ks).2.flipEach ls).2 = (d.flipEach (ks ++ ls)).2 := by
    rw [flipEach_append]
  rw [twice, flipEach_eq_self_iff]
  intro k _
  rw [List.count_append, perm.count_eq]
  omega

/-- Inverting a pixel twice restores it. -/
theorem flip_flip (d : Display) (k : Nat) : ((d.flip k).2.flip k).2 = d :=
  flipEach_flipEach_perm d (.refl [k])

/-! ### Sprites -/

theorem wrappedCell_congr {d d' : Display} (width : d.width = d'.width)
    (height : d.height = d'.height) (x y : Int) : d.wrappedCell x y = d'.wrappedCell x y := by
  simp [wrappedCell, width, height]

theorem spriteCells_congr {d d' : Display} (width : d.width = d'.width)
    (height : d.height = d'.height) (x y : Int) (rows : List UInt8) :
    d.spriteCells x y rows = d'.spriteCells x y rows := by
  induction rows generalizing y with
  | nil => rfl
  | cons row rows ih =>
      simp only [spriteCells, columnCells, ih, wrappedCell_congr width height]

/-- Wrapping both coordinates around leads to a cell of the screen. -/
theorem wrappedCell_lt (d : Display) (x y : Int) : d.wrappedCell x y < d.size := by
  have width := d.width_pos
  have height := d.height_pos
  have column : (x % d.width).toNat < d.width := by
    have := Int.emod_lt_of_pos x (Int.natCast_pos.mpr width)
    omega
  have row : (y % d.height).toNat + 1 ≤ d.height := by
    have := Int.emod_lt_of_pos y (Int.natCast_pos.mpr height)
    omega
  have size : d.size = d.width * d.height := d.size_eq
  calc d.wrappedCell x y < (y % d.height).toNat * d.width + d.width :=
        Nat.add_lt_add_left column _
    _ = ((y % d.height).toNat + 1) * d.width := by rw [Nat.add_mul, Nat.one_mul]
    _ ≤ d.height * d.width := Nat.mul_le_mul_right _ row
    _ = d.size := by rw [size, Nat.mul_comm]

/-- A sprite stays on the screen, since its coordinates wrap around. -/
theorem lt_of_mem_spriteCells {x y : Int} {rows : List UInt8} {k : Nat}
    (h : k ∈ d.spriteCells x y rows) : k < d.size := by
  induction rows generalizing y with
  | nil => cases h
  | cons row rows ih =>
      rcases List.mem_append.mp h with here | below
      · obtain ⟨c, _, rfl⟩ := List.mem_map.mp here
        exact wrappedCell_lt d _ _
      · exact ih below

theorem drawColumns_succ_set {x y : Int} {row : UInt8} {column : Nat} (set : rowBit row column)
    (count : Nat) (hit : Bool) (d : Display) :
    drawColumns x y row (count + 1) column hit d =
      drawColumns x y row count (column + 1) (hit || (d.flip (d.wrappedCell (x + column) y)).1)
        (d.flip (d.wrappedCell (x + column) y)).2 := by
  rw [drawColumns, if_pos set]

/-- Drawing the columns of a row inverts the cells of its set bits. -/
theorem drawColumns_eq (d : Display) (x y : Int) (row : UInt8) (count column : Nat) (hit : Bool) :
    drawColumns x y row count column hit d =
      (hit || (d.flipEach (d.columnCells x y row count column)).1,
        (d.flipEach (d.columnCells x y row count column)).2) := by
  induction count generalizing column hit d with
  | zero => simp [drawColumns, columnCells]
  | succ count ih =>
      by_cases set : rowBit row column
      · have cells : d.columnCells x y row (count + 1) column =
            d.wrappedCell (x + column) y :: d.columnCells x y row count (column + 1) := by
          simp [columnCells, List.range'_succ, set]
        have rest : (d.flip (d.wrappedCell (x + column) y)).2.columnCells x y row count
            (column + 1) = d.columnCells x y row count (column + 1) := by
          simp only [columnCells, wrappedCell_congr (width_flip d _) (height_flip d _)]
        rw [drawColumns_succ_set set, cells, flipEach_cons, ih, rest, Bool.or_assoc]
      · have cells : d.columnCells x y row (count + 1) column =
            d.columnCells x y row count (column + 1) := by
          simp [columnCells, List.range'_succ, set]
        rw [drawColumns, if_neg set, cells, ih]

/-- A row of a sprite inverts the pixels of its set bits. -/
theorem drawRow_eq (d : Display) (x y : Int) (row : UInt8) :
    d.drawRow x y row = d.flipEach (d.columnCells x y row 8 0) := by
  rw [drawRow, drawColumns_eq, Bool.false_or]

@[simp] theorem drawBytes_nil (d : Display) (x y : Int) : d.drawBytes x y [] = (false, d) := rfl

@[simp] theorem drawBytes_cons (d : Display) (x y : Int) (row : UInt8) (rows : List UInt8) :
    d.drawBytes x y (row :: rows) =
      ((d.drawRow x y row).1 || ((d.drawRow x y row).2.drawBytes x (y + 1) rows).1,
        ((d.drawRow x y row).2.drawBytes x (y + 1) rows).2) := rfl

/-- A sprite inverts the pixels of its set bits, row after row. -/
theorem drawBytes_eq (d : Display) (x y : Int) (rows : List UInt8) :
    d.drawBytes x y rows = d.flipEach (d.spriteCells x y rows) := by
  induction rows generalizing y d with
  | nil => rfl
  | cons row rows ih =>
      rw [drawBytes_cons, ih, drawRow_eq, spriteCells, flipEach_append,
        spriteCells_congr (width_flipEach d _) (height_flipEach d _)]

/-- A sprite leaves the screen as it was exactly if it inverts each pixel an even number of
times. -/
theorem drawBytes_eq_self_iff (d : Display) (x y : Int) (rows : List UInt8) :
    (d.drawBytes x y rows).2 = d ↔ ∀ k, (d.spriteCells x y rows).count k % 2 = 0 := by
  rw [drawBytes_eq, flipEach_eq_self_iff]
  constructor
  · intro even k
    by_cases inside : k < d.size
    · exact even k inside
    · rw [List.count_eq_zero_of_not_mem fun mem => inside (lt_of_mem_spriteCells mem)]
  · exact fun even k _ => even k

/-! ### Binary screens -/

/-- Every cell holds 0 or 1. -/
def IsBinary (d : Display) : Prop := ∀ c ∈ d.cells, c = 0 ∨ c = 1

/-- Cells are binary if none holds anything but 0 and 1. -/
theorem isBinary_iff :
    d.IsBinary ↔ ∀ (k : Nat) (c : UInt8), d.cells[k]? = some c → c = 0 ∨ c = 1 := by
  constructor
  · exact fun binary k c cell => binary c (Array.mem_of_getElem? cell)
  · intro cells c mem
    obtain ⟨k, cell⟩ := Array.mem_iff_getElem?.mp mem
    exact cells k c cell

theorem isBinary_clear (d : Display) : d.clear.IsBinary := by
  intro c mem
  simp only [clear, Cells.clear, Cells.zero, Array.mem_replicate] at mem
  exact .inl mem.2

theorem IsBinary.flipEach (binary : d.IsBinary) (ks : List Nat) : (d.flipEach ks).2.IsBinary := by
  rw [isBinary_iff] at binary ⊢
  intro k c cell
  rw [cells_flipEach] at cell
  obtain ⟨old, held, rfl⟩ := Option.map_eq_some_iff.mp cell
  by_cases even : ks.count k % 2 = 0
  · rw [if_pos even]
    exact binary k old held
  · rw [if_neg even]
    rcases binary k old held with rfl | rfl
    · exact .inr rfl
    · exact .inl rfl

theorem IsBinary.drawBytes (binary : d.IsBinary) (x y : Int) (rows : List UInt8) :
    (d.drawBytes x y rows).2.IsBinary := by
  rw [drawBytes_eq]
  exact binary.flipEach _

end Chip8.Display
