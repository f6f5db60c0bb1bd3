import Chip8.Listing
import Chip8.Proofs.Machine.Step
import Chip8.Proofs.Memory.Block

/-!
What a listing shows.

Where a bus holds bytes, their listing is made of them alone (`linesFrom_of_holds`). So the listing
of the two bytes of a word is one line for that word (`lines?_of_word`), and on a backed bus a range
of mapped addresses can be listed, in a line for each two bytes and one for a byte that is left over
(`exists_lines?`). A listing depends on a bus only through the bytes at its addresses and the end of
the mapped ones (`lines?_congr`).
-/

namespace Chip8.Listing

variable {b c : Bus} {a : Int}

/-- The lines of bytes that stand from an address on: one for each two of them, and one for a byte
that is left over. -/
def linesOf : Int → List UInt8 → List Line
  | _, [] => []
  | a, [byte] => [Line.ofByte a byte]
  | a, high :: low :: bytes =>
    Line.ofWord a (high.toNat * 256 + low.toNat) :: linesOf (a + 2) bytes

/-- A line shows two bytes, but for the last one of an odd number. -/
theorem length_linesOf (a : Int) (bytes : List UInt8) :
    (linesOf a bytes).length = (bytes.length + 1) / 2 := by
  induction a, bytes using linesOf.induct with
  | case1 a => rfl
  | case2 a byte => simp [linesOf]
  | case3 a high low bytes ih =>
      simp only [linesOf, List.length_cons, ih]
      omega

/-- Bytes that a bus holds are listed as what they are. -/
theorem linesFrom_of_holds {bytes : List UInt8} (holds : b.Holds a bytes) :
    linesFrom b bytes.length a = .ok (linesOf a bytes) := by
  induction a, bytes using linesOf.induct with
  | case1 a => rfl
  | case2 a byte =>
      simp only [List.length_singleton, linesFrom, (Bus.holds_cons.mp holds).1]
      rfl
  | case3 a high low bytes ih =>
      obtain ⟨first, later⟩ := Bus.holds_cons.mp holds
      obtain ⟨second, rest⟩ := Bus.holds_cons.mp later
      rw [Int.add_assoc] at rest
      simp only [List.length_cons, linesFrom, first, second]
      rw [ih rest]
      rfl

/-- A range is listed up to its end or that of the mapped addresses. -/
theorem lines?_of_holds {bytes : List UInt8} {length : Int} (holds : b.Holds a bytes)
    (whole : bytes.length = (min (a + length) b.mappedEnd - a).toNat) :
    lines? b a length = .ok (linesOf a bytes) := by
  rw [lines?, ← whole, linesFrom_of_holds holds]

/-- Where a word can be read, its two bytes are listed as that word. -/
theorem lines?_of_word {w : Int} (word : b.wordAt? a = .ok w) :
    lines? b a 2 = .ok [Line.ofWord a w] := by
  obtain ⟨high, low, first, second, rfl⟩ := Bus.bytes_of_wordAt? word
  have holds : b.Holds a [high, low] :=
    Bus.holds_cons.mpr ⟨first, Bus.holds_cons.mpr ⟨second, Bus.holds_nil b (a + 1 + 1)⟩⟩
  have inside : a + 1 < b.mappedEnd := Bus.lt_mappedEnd (Bus.maps_of_peek? second)
  refine lines?_of_holds holds ?_
  rw [List.length_cons, List.length_singleton]
  omega

theorem linesFrom_congr (peeks : ∀ a, b.peek? a = c.peek? a) (count : Nat) (a : Int) :
    linesFrom b count a = linesFrom c count a := by
  induction count, a using linesFrom.induct with
  | case1 a => rfl
  | case2 a => simp only [linesFrom, peeks]
  | case3 count a ih => simp only [linesFrom, peeks, ih]

/-- A listing depends on nothing but the bytes and where the mapped addresses end. -/
theorem lines?_congr (peeks : ∀ a, b.peek? a = c.peek? a) (ends : b.mappedEnd = c.mappedEnd)
    (start length : Int) : lines? b start length = lines? c start length := by
  rw [lines?, lines?, ends, linesFrom_congr peeks]

/-- Mapped addresses can be listed, two bytes in a line. -/
theorem exists_lines? (hb : b.Backed) {length : Nat} (mapped : ∀ k < length, b.Maps (a + k)) :
    ∃ lines, lines? b a length = .ok lines ∧ lines.length = (length + 1) / 2 := by
  obtain ⟨bytes, rfl, holds⟩ := hb.fitted.exists_holds mapped
  refine ⟨linesOf a bytes, lines?_of_holds holds ?_, length_linesOf a bytes⟩
  rcases Nat.eq_zero_or_pos bytes.length with none | some
  · omega
  · have below := Bus.lt_mappedEnd (mapped (bytes.length - 1) (by omega))
    omega

end Chip8.Listing
