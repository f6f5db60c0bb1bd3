import Chip8.Host.Usual
import Chip8.Proofs.Display.Draw
import Chip8.Proofs.Numeral

/-!
Pixels and their cells.

The pixel in column `x` of row `y` is read from cell `y * width + x`, and that number alone is
checked. Points of the screen have cells of their own (`cell_inj`). A point beside the screen shares
its cell with a pixel of another row, if there is one (`pixel?_runs_on`), so it is the row reached in
this way that decides whether a point is refused (`beside_screen_runs_on`).

`Arises` says which screens can come about. All of them have the size that was asked for and are
small enough for their sizes to be written.
-/

namespace Chip8

namespace Cells

variable {cs : Cells} {store : Store} {a : Int}

/-- There are no more cells than can be numbered and than there is room for. -/
theorem countFault?_eq_none_iff [Host] {count : Nat} :
    countFault? count = none ↔ count < indexBound ∧ count ≤ Host.room := by
  unfold countFault?
  split
  · simp only [reduceCtorEq, false_iff]
    omega
  · split
    · simp only [reduceCtorEq, false_iff]
      omega
    · simp only [true_iff]
      omega

theorem read?_of_covers (inside : cs.Covers a) : ∃ byte, cs.read? store a = .ok byte := by
  obtain ⟨low, high⟩ := inside
  have place : a.toNat < cs.size := by omega
  exact ⟨cs[a.toNat], by simp [read?, low, place]⟩

theorem read?_of_not_covers (outside : ¬ cs.Covers a) :
    cs.read? store a = .error (.outOfBounds store a cs.size) := by
  by_cases low : 0 ≤ a
  · have beyond : ¬ a.toNat < cs.size := fun inside => outside ⟨low, by omega⟩
    simp [read?, low, beyond]
  · simp [read?, low]

end Cells

namespace Display

variable {d : Display} {p q : Nat} {x y : Int}

/-! ### Pixels and cells -/

/-- A point of the screen has a cell. -/
theorem cell_lt (hp : p < d.width) (hq : q < d.height) : q * d.width + p < d.cells.size := by
  calc q * d.width + p < q * d.width + d.width := Nat.add_lt_add_left hp _
    _ = (q + 1) * d.width := by rw [Nat.add_mul, Nat.one_mul]
    _ ≤ d.height * d.width := Nat.mul_le_mul_right _ hq
    _ = d.cells.size := by rw [d.size_eq, Nat.mul_comm]

/-- Each cell of the screen is the one of a pixel. -/
theorem exists_pixel {k : Nat} (hk : k < d.cells.size) :
    ∃ p < d.width, ∃ q < d.height, k = q * d.width + p := by
  refine ⟨k % d.width, Nat.mod_lt k d.width_pos, k / d.width, ?_, ?_⟩
  · rwa [Nat.div_lt_iff_lt_mul d.width_pos, Nat.mul_comm, ← d.size_eq]
  · rw [Nat.mul_comm, Nat.div_add_mod]

/-- Different pixels have different cells. -/
theorem cell_inj {p' q' : Nat} (hp : p < d.width) (hp' : p' < d.width) :
    q * d.width + p = q' * d.width + p' ↔ p = p' ∧ q = q' := by
  constructor
  · intro same
    have column := congrArg (· % d.width) same
    simp only [Nat.mul_add_mod_of_lt hp, Nat.mul_add_mod_of_lt hp'] at column
    refine ⟨column, Nat.eq_of_mul_eq_mul_right d.width_pos ?_⟩
    omega
  · rintro ⟨rfl, rfl⟩
    rfl

theorem cellOf_natCast (d : Display) (p q : Nat) :
    d.cellOf p q = ((q * d.width + p : Nat) : Int) := by
  rw [cellOf, Int.natCast_add, Int.natCast_mul]

/-- A pixel shows what its cell holds. -/
theorem pixel?_eq_ok_iff {c : UInt8} :
    d.pixel? p q = .ok c ↔ d.cells[q * d.width + p]? = some c := by
  simp only [pixel?, cellOf_natCast, read?, Cells.read?, if_pos (Int.natCast_nonneg _),
    Int.toNat_natCast]
  cases d.cells[q * d.width + p]? <;> simp

/-! ### Screens that can come about -/

/-- A new screen has the size that was asked for, its cells can be numbered, and it is dark. -/
theorem dark_of_create? [Host] {width height : Int} (h : create? width height = .ok d) :
    (0 < width ∧ 0 < height) ∧ d.width = width ∧ d.height = height ∧
      d.size < indexBound ∧ ∀ cell ∈ d.cells, cell = 0 := by
  unfold create? at h
  split at h
  · rename_i positive
    split at h
    · cases h
    · rename_i room
      cases h
      refine ⟨positive, Int.toNat_of_nonneg (by omega), Int.toNat_of_nonneg (by omega), ?_, ?_⟩
      · simpa [Display.size] using (Cells.countFault?_eq_none_iff.mp room).1
      · intro cell mem
        simp only [Cells.zero, Array.mem_replicate] at mem
        exact mem.2
  · cases h

theorem isBinary_of_create? [Host] {width height : Int} (h : create? width height = .ok d) :
    d.IsBinary := by
  obtain ⟨_, _, _, _, dark⟩ := dark_of_create? h
  exact fun cell mem => .inl (dark cell mem)

/-- The screens of some width and height that can come about: one that is made, with raw values
written to its cells, pixels inverted, and all of it cleared. -/
inductive Arises (width height : Int) : Display → Prop where
  | create [Host] {d : Display} : create? width height = .ok d → Arises width height d
  | write {d : Display} (a v : Int) : Arises width height d → d.writeFault? a v = none →
      Arises width height (d.store a v)
  | xor {d d' : Display} {x y : Int} {lit : Bool} : Arises width height d →
      d.xorPixel? x y = .ok (lit, d') → Arises width height d'
  | clear {d : Display} : Arises width height d → Arises width height d.clear

/-- Inverting a pixel inverts its cell if there is one. -/
theorem xorPixel?_cases {r : Bool × Display} (h : d.xorPixel? x y = .ok r) :
    r = d.flip (d.cellOf x y).toNat := by
  unfold xorPixel? at h
  split at h
  · exact (Except.ok.inj h).symm
  · cases h

/-- A screen keeps the size with which it was made. -/
theorem Arises.size {width height : Int} (arises : Arises width height d) :
    d.width = width ∧ d.height = height ∧ d.size < indexBound := by
  induction arises with
  | create made =>
      obtain ⟨_, wide, high, room, _⟩ := dark_of_create? made
      exact ⟨wide, high, room⟩
  | write a v _ _ ih => simpa [store, Display.size] using ih
  | xor _ inverted ih =>
      have moved := congrArg Prod.snd (xorPixel?_cases inverted)
      simp only at moved
      rw [moved]
      simpa [flip, Display.size] using ih
  | clear _ ih => simpa [Display.clear, Display.size] using ih

/-! ### Points beside the screen -/

def OnScreen (d : Display) (x y : Int) : Prop := 0 ≤ x ∧ x < d.width ∧ 0 ≤ y ∧ y < d.height

/-- A point that is answered with the value of a pixel. -/
def Answers (d : Display) (x y : Int) : Prop := ∃ c, d.pixel? x y = .ok c

/-- A point is answered exactly if its number is that of a cell. -/
theorem answers_iff_covers : d.Answers x y ↔ d.cells.Covers (d.cellOf x y) := by
  constructor
  · rintro ⟨c, shown⟩
    refine Decidable.byContradiction fun outside => ?_
    rw [pixel?, read?, Cells.read?_of_not_covers outside] at shown
    cases shown
  · exact Cells.read?_of_covers

/-- Columns beside the screen run on in the rows above and below. -/
theorem cellOf_runs_on (d : Display) (x y : Int) :
    d.cellOf x y = d.cellOf (x % d.width) (y + x / d.width) := by
  rw [cellOf, cellOf, Int.add_mul, Int.add_assoc, Int.ediv_mul_add_emod]

/-- Beside the screen a row runs on to the next. -/
theorem pixel?_runs_on (d : Display) (x y : Int) :
    d.pixel? x y = d.pixel? (x % d.width) (y + x / d.width) := by
  rw [pixel?, pixel?, cellOf_runs_on]

/-- A point has a cell exactly if the row that it runs on to is one of the screen. -/
theorem covers_cellOf_iff :
    d.cells.Covers (d.cellOf x y) ↔ 0 ≤ y + x / d.width ∧ y + x / d.width < d.height := by
  have width := Int.natCast_pos.mpr d.width_pos
  have row : d.cellOf x y / d.width = y + x / d.width := by
    rw [cellOf, Int.add_comm, Int.add_mul_ediv_right _ _ (Int.ne_of_gt width), Int.add_comm]
  have size : (d.cells.size : Int) = d.height * d.width := by
    rw [d.size_eq, Int.natCast_mul, Int.mul_comm]
  rw [Cells.Covers, size, ← row, Int.ediv_lt_iff_lt_mul width, Int.ediv_nonneg_iff_of_pos width]

/-- In a column of the screen it is the row alone that decides. -/
theorem answers_iff_of_column (low : 0 ≤ x) (high : x < d.width) :
    d.Answers x y ↔ 0 ≤ y ∧ y < d.height := by
  rw [answers_iff_covers, covers_cellOf_iff, Int.ediv_eq_zero_of_lt low high, Int.add_zero]

/-- A point is answered exactly if it is one of the screen, unless it lies beside the screen and runs
on to one of its rows. -/
theorem answers_iff_onScreen_iff :
    (d.Answers x y ↔ d.OnScreen x y) ↔
      (0 ≤ x ∧ x < d.width) ∨ ¬ (0 ≤ y + x / d.width ∧ y + x / d.width < d.height) := by
  by_cases column : 0 ≤ x ∧ x < d.width
  · simp only [column, answers_iff_of_column column.1 column.2, OnScreen, true_and, true_or]
  · have beside : ¬ d.OnScreen x y := fun inside => column ⟨inside.1, inside.2.1⟩
    rw [iff_false_right beside, answers_iff_covers, covers_cellOf_iff, or_iff_right column]

/-- A point that is refused is reported as an access to memory, if the number of its cell can be
written. -/
theorem kind_of_pixel?_error {e : Fault} (small : d.size < indexBound)
    (refused : d.pixel? x y = .error e) (writable : Numeral.isWritable (d.cellOf x y) = true) :
    e.kind = .memoryAccess := by
  have outside : ¬ d.cells.Covers (d.cellOf x y) := by
    intro inside
    obtain ⟨c, shown⟩ := answers_iff_covers.mpr inside
    rw [refused] at shown
    cases shown
  rw [pixel?, read?, Cells.read?_of_not_covers outside, Except.error.injEq] at refused
  have few : d.size < Nat.pow 10 19 := Nat.lt_trans small (by decide)
  have short : Numeral.isWritable (d.cells.size : Int) = true :=
    Numeral.isWritable_of_lt few (by decide)
  rw [← refused, Fault.kind, if_pos]
  simp only [Fault.isWritable, Fault.shownIntegers, List.all_cons, writable, short, List.all_nil,
    Bool.and_true]

/-- A point is answered exactly if the number of its cell is one of the screen, and else refused as
an access to memory if that number can be written. In a column of the screen this depends on the row
alone. A point beside the screen is answered as the pixel that it runs on to in another row, if there
is such a row, and these points are the only ones off the screen that are answered. -/
theorem beside_screen_runs_on {width height : Int} (arises : Arises width height d) (x y : Int) :
    (d.Answers x y ↔ 0 ≤ y * width + x ∧ y * width + x < width * height) ∧
      (∀ e, d.pixel? x y = .error e → Numeral.isWritable (y * width + x) = true →
        e.kind = .memoryAccess) ∧
      (0 ≤ x → x < width → (d.Answers x y ↔ 0 ≤ y ∧ y < height)) ∧
      d.pixel? x y = d.pixel? (x % width) (y + x / width) ∧
      ((d.Answers x y ↔ 0 ≤ x ∧ x < width ∧ 0 ≤ y ∧ y < height) ↔
        (0 ≤ x ∧ x < width) ∨ ¬ (0 ≤ y + x / width ∧ y + x / width < height)) := by
  obtain ⟨rfl, rfl, small⟩ := arises.size
  refine ⟨?_, fun e => kind_of_pixel?_error small, answers_iff_of_column, pixel?_runs_on d x y,
    answers_iff_onScreen_iff⟩
  rw [answers_iff_covers, Cells.Covers, d.size_eq, Int.natCast_mul]
  rfl

/-- On a screen of two by two pixels the point to the left of the third row is answered as the last
pixel, and the point below the first column is refused. -/
theorem two_by_two_runs_on :
    ∃ d, Arises 2 2 d ∧ d.pixel? (-1) 2 = d.pixel? 1 1 ∧ ¬ d.Answers 0 2 := by
  have arises : Arises 2 2 _ := .create rfl
  refine ⟨_, arises, ?_, ?_⟩
  · exact (beside_screen_runs_on arises (-1) 2).2.2.2.1
  · rw [(beside_screen_runs_on arises 0 2).1]
    decide

/-- On a screen of two by two pixels, the first one of the second row lit, the point to the right of
the first row is off the screen and answered as that pixel. -/
theorem two_by_two_answers_off_screen :
    ∃ d, Arises 2 2 d ∧ ¬ d.OnScreen 2 0 ∧ d.pixel? 2 0 = .ok 1 ∧ d.pixel? 0 1 = .ok 1 := by
  refine ⟨_, .xor (x := 0) (y := 1) (.create rfl) rfl, ?_, rfl, rfl⟩
  unfold OnScreen
  decide

end Display

end Chip8
