import Chip8.Proofs.Display.Pixel

/-!
The views of a screen: its pixels one by one, its rows, and the frame of all its cells.

The rows are slices of the frame, one after the other (`flatten_rows`), so what a pixel shows in one
view it shows in the other two (`shows_iff`). Inverting a pixel is then a change of one cell, and
different pixels of the screen have different cells (`cell_inj`): no view shows a change anywhere
else (`flipped_of_xorPixel?`).
-/

namespace Chip8.Display

variable {d : Display} {p q : Nat}

/-! ### Rows and frame -/

theorem length_frame (d : Display) : d.frame.length = d.height * d.width := by
  rw [frame, Array.length_toList, d.size_eq, Nat.mul_comm]

theorem length_rows (d : Display) : d.rows.length = d.height := by simp [rows]

theorem getElem?_rows (hq : q < d.height) :
    d.rows[q]? = some ((d.frame.drop (q * d.width)).take d.width) := by
  rw [rows, List.getElem?_map, List.getElem?_range hq, Option.map_some]

/-- No row is cut short: each of them begins a whole row before the end of the frame. -/
theorem length_of_mem_rows {row : List UInt8} (mem : row ∈ d.rows) : row.length = d.width := by
  obtain ⟨q, low, rfl⟩ := List.mem_map.mp mem
  have whole : (q + 1) * d.width ≤ d.height * d.width :=
    Nat.mul_le_mul_right _ (List.mem_range.mp low)
  rw [Nat.add_mul, Nat.one_mul] at whole
  rw [List.length_take, List.length_drop, length_frame]
  omega

/-- Slices of one length, each from the end of the one before, make up the list that they are
taken from. -/
theorem flatten_slices {α : Type} (xs : List α) (width count : Nat) :
    ((List.range count).map fun q => (xs.drop (q * width)).take width).flatten =
      xs.take (count * width) := by
  induction count with
  | zero => simp
  | succ count ih =>
      rw [List.range_succ, List.map_append, List.flatten_append, ih, Nat.add_mul, Nat.one_mul,
        List.take_add]
      simp

/-- The rows one after the other are the frame. -/
theorem flatten_rows (d : Display) : d.rows.flatten = d.frame := by
  rw [rows, flatten_slices, ← length_frame, List.take_length]

/-! ### What a pixel shows -/

/-- The value that the pixel in column `p` of row `q` shows, in each of the views. -/
structure Shows (d : Display) (p q : Nat) (c : UInt8) : Prop where
  pixel : d.pixel? p q = .ok c
  rows : d.rows[q]?.bind (·[p]?) = some c
  frame : d.frame[q * d.width + p]? = some c

/-- A pixel of the screen shows what its cell holds. -/
theorem shows_iff (hp : p < d.width) (hq : q < d.height) {c : UInt8} :
    d.Shows p q c ↔ d.cells[q * d.width + p]? = some c := by
  constructor
  · exact fun shown => pixel?_eq_ok_iff.mp shown.pixel
  · intro cell
    have frame : d.frame[q * d.width + p]? = some c := by
      rw [Display.frame, Array.getElem?_toList, cell]
    refine ⟨pixel?_eq_ok_iff.mpr cell, ?_, frame⟩
    rw [getElem?_rows hq, Option.bind_some, List.getElem?_take_of_lt hp, List.getElem?_drop, frame]

/-- The three views of a screen show the same. -/
structure ViewsAgree (d : Display) : Prop where
  rows : d.rows.length = d.height
  columns : ∀ row ∈ d.rows, row.length = d.width
  flatten : d.rows.flatten = d.frame
  shows : ∀ p < d.width, ∀ q < d.height, ∃ c, d.Shows p q c

/-- Every view shows the cell of a pixel. -/
theorem viewsAgree (d : Display) : d.ViewsAgree where
  rows := length_rows d
  columns _ := length_of_mem_rows
  flatten := flatten_rows d
  shows p hp q hq := by
    have inside := cell_lt hp hq
    exact ⟨_, (shows_iff hp hq).mpr (Array.getElem?_eq_getElem inside)⟩

/-! ### Inverting a pixel -/

/-- What comes of inverting the pixel in column `p` of row `q`. The answer is `lit`, and the screen
afterwards is `d'`:

* the pixel has its lowest bit inverted and each other pixel of the screen shows what it showed, in
  all views,
* the answer is that the pixel was lit, which is so if it showed 1, and
* inverting the pixel once more restores the screen. -/
structure Flipped (d : Display) (p q : Nat) (lit : Bool) (d' : Display) : Prop where
  width : d'.width = d.width
  height : d'.height = d.height
  here : ∀ c, d.Shows p q c → d'.Shows p q (c ^^^ 1)
  elsewhere : ∀ p' < d.width, ∀ q' < d.height, ¬ (p' = p ∧ q' = q) →
    ∀ c, d'.Shows p' q' c ↔ d.Shows p' q' c
  lit : lit = true ↔ d.Shows p q 1
  again : ∃ lit', d'.xorPixel? p q = .ok (lit', d)

/-- On the screen, inverting a point is inverting its cell. -/
theorem xorPixel?_of_lt (hp : p < d.width) (hq : q < d.height) :
    d.xorPixel? p q = .ok (d.flip (q * d.width + p)) := by
  have inside := cell_lt hp hq
  rw [xorPixel?, cellOf_natCast, if_pos ⟨Int.natCast_nonneg _, Int.ofNat_lt.mpr inside⟩,
    Int.toNat_natCast]

/-- What a pixel shows after some cell was inverted. -/
theorem shows_flip_iff (hp : p < d.width) (hq : q < d.height) {k : Nat} {c : UInt8} :
    (d.flip k).2.Shows p q c ↔
      (if k = q * d.width + p then d.cells[q * d.width + p]?.map (· ^^^ 1)
        else d.cells[q * d.width + p]?) = some c := by
  rw [← cells_flip]
  exact shows_iff (d := (d.flip k).2) hp hq

theorem flipped_flip (hp : p < d.width) (hq : q < d.height) :
    d.Flipped p q (d.flip (q * d.width + p)).1 (d.flip (q * d.width + p)).2 where
  width := rfl
  height := rfl
  here c shown := by
    rw [shows_iff hp hq] at shown
    rw [shows_flip_iff hp hq, if_pos rfl, shown, Option.map_some]
  elsewhere p' hp' q' hq' other c := by
    have apart : q * d.width + p ≠ q' * d.width + p' := by
      rw [ne_eq, cell_inj hp hp']
      exact fun same => other ⟨same.1.symm, same.2.symm⟩
    rw [shows_flip_iff hp' hq', if_neg apart, shows_iff hp' hq']
  lit := by rw [lit_flip_iff, shows_iff hp hq]
  again := by
    refine ⟨((d.flip (q * d.width + p)).2.flip (q * d.width + p)).1, ?_⟩
    refine (xorPixel?_of_lt (d := (d.flip (q * d.width + p)).2) hp hq).trans (congrArg Except.ok ?_)
    exact Prod.ext rfl (flip_flip d _)

/-- The views of a screen agree whatever was done to it, and a pixel of the screen that is inverted
is so in all of them, and alone. -/
theorem views_agree_and_flips_are_local {width height : Int} (arises : Arises width height d) :
    d.width = width ∧ d.height = height ∧ d.ViewsAgree ∧
      ∀ p < d.width, ∀ q < d.height, ∃ lit d',
        d.xorPixel? p q = .ok (lit, d') ∧ d.Flipped p q lit d' := by
  obtain ⟨wide, high, _⟩ := arises.size
  refine ⟨wide, high, viewsAgree d, fun p hp q hq => ?_⟩
  exact ⟨_, _, xorPixel?_of_lt hp hq, flipped_flip hp hq⟩

/-- A screen of three by two pixels, on which the last pixel of the first row was inverted and the
middle one of the second row was given a value that is no pixel's. -/
theorem three_by_two_views_agree :
    ∃ d, Arises 3 2 d ∧ d.rows = [[0, 0, 1], [0, 7, 0]] ∧ d.ViewsAgree ∧
      ∃ lit d', d.xorPixel? 1 1 = .ok (lit, d') ∧ d.Flipped 1 1 lit d' := by
  have made : Arises 3 2 _ := .create rfl
  have arises := (made.xor (x := 2) (y := 0) rfl).write 4 7 rfl
  obtain ⟨_, _, agree, local_flip⟩ := views_agree_and_flips_are_local arises
  exact ⟨_, arises, rfl, agree, local_flip 1 (by decide) 1 (by decide)⟩

end Chip8.Display
