import Chip8.Proofs.Listing
import Chip8.Proofs.Machine.Failure
import Chip8.Proofs.Machine.Request
import Chip8.Proofs.Numeral

/-!
The listing of a range.

The lines of a range show each of its bytes once and no others, in the order of their addresses
(`listing_covers_range`): two bytes in a line, with the digits and the text of their word, and a byte
that is left over in a line of its own. A range that reaches past the end of memory is listed up to
it, and one that is empty in no lines at all.
-/

namespace Chip8

open Numeral

namespace Listing

variable {start : Int} {bytes : List UInt8} {k : Nat} {line : Line}

/-- What the line with an index shows of the bytes that are listed from an address on. -/
inductive Shows (start : Int) (bytes : List UInt8) (k : Nat) : Line → Prop where
  | word {high low : UInt8} : bytes[2 * k]? = some high → bytes[2 * k + 1]? = some low →
      Shows start bytes k
        ⟨start + 2 * k, hexText [high, low],
          (Operation.ofWord (high.toNat * 256 + low.toNat)).text⟩
  | byte {left : UInt8} : bytes[2 * k]? = some left → 2 * k + 1 = bytes.length →
      Shows start bytes k ⟨start + 2 * k, hexText [left], "DB $" ++ hexText [left]⟩

/-- A line has four digits, and two where it shows the byte that is left over. -/
theorem Shows.length_bytes (h : Shows start bytes k line) :
    line.bytes.length = if 2 * k + 1 = bytes.length then 2 else 4 := by
  cases h with
  | word first second =>
      have inside := (List.getElem?_eq_some_iff.mp second).1
      rw [if_neg (by omega), length_hexText]
      rfl
  | byte found last =>
      rw [if_pos last, length_hexText]
      rfl

/-! ### One line -/

theorem line_ofWord (a : Int) (high low : UInt8) :
    Line.ofWord a (high.toNat * 256 + low.toNat) =
      ⟨a, hexText [high, low], (Operation.ofWord (high.toNat * 256 + low.toNat)).text⟩ := by
  rw [Line.ofWord, ← hex_word]
  rfl

theorem line_ofByte (a : Int) (byte : UInt8) :
    Line.ofByte a byte = ⟨a, hexText [byte], "DB $" ++ hexText [byte]⟩ := by
  rw [Line.ofByte, hex_byte]

theorem shows_ofWord (a : Int) (high low : UInt8) (bytes : List UInt8) :
    Shows a (high :: low :: bytes) 0 (Line.ofWord a (high.toNat * 256 + low.toNat)) := by
  have shown : Shows a (high :: low :: bytes) 0 _ := .word rfl rfl
  rw [Int.natCast_zero, Int.mul_zero, Int.add_zero] at shown
  rwa [line_ofWord]

theorem shows_ofByte (a : Int) (byte : UInt8) : Shows a [byte] 0 (Line.ofByte a byte) := by
  have shown : Shows a [byte] 0 _ := .byte rfl rfl
  rw [Int.natCast_zero, Int.mul_zero, Int.add_zero] at shown
  rwa [line_ofByte]

/-- Behind two more bytes a line shows the same, with an index one higher. -/
theorem Shows.behind (h : Shows (start + 2) bytes k line) (high low : UInt8) :
    Shows start (high :: low :: bytes) (k + 1) line := by
  have address : start + 2 + 2 * (k : Int) = start + 2 * ((k + 1 : Nat) : Int) := by omega
  cases h with
  | word first second =>
      rw [address]
      exact .word first second
  | byte found last =>
      rw [address]
      exact .byte found (by rw [List.length_cons, List.length_cons]; omega)

/-! ### All lines -/

/-- Each line of a listing shows the bytes at its index. -/
theorem shows_linesOf (found : (linesOf start bytes)[k]? = some line) :
    Shows start bytes k line := by
  induction start, bytes using linesOf.induct generalizing k with
  | case1 a => simp [linesOf] at found
  | case2 a byte =>
      cases k with
      | zero =>
          cases found
          exact shows_ofByte a byte
      | succ k => simp [linesOf] at found
  | case3 a high low bytes ih =>
      cases k with
      | zero =>
          cases found
          exact shows_ofWord a high low bytes
      | succ k => exact (ih found).behind high low

/-- The digits of the lines, put together, are those of the bytes. -/
theorem join_bytes_linesOf (start : Int) (bytes : List UInt8) :
    String.join ((linesOf start bytes).map Line.bytes) = hexText bytes := by
  induction start, bytes using linesOf.induct with
  | case1 a => rfl
  | case2 a byte => simp [linesOf, line_ofByte]
  | case3 a high low bytes ih =>
      rw [linesOf, List.map_cons, String.join_cons, ih, line_ofWord]
      exact (hexText_append [high, low] bytes).symm

end Listing

namespace Machine

open Listing

variable {m : Machine} {size : Nat} {start : Int}

/-- Where memory covers the addresses below a size, every range from an address on can be listed, and
listing it changes nothing. The lines show the bytes from there to the end of the range or of
memory, whichever comes first: none where that end lies at the start or before it, else one for each
two bytes and one for a byte left over. -/
theorem listing_covers_range (rams : m.bus.OfRams)
    (covered : ∀ a, m.bus.Maps a ↔ 0 ≤ a ∧ a < size) (low : 0 ≤ start) (length : Int) :
    ∃ bytes lines,
      serve (.look (.list start length)) m = (.ok (.lines lines), m) ∧
      bytes.length = (min (start + length) size - start).toNat ∧ m.bus.Holds start bytes ∧
      (min (start + length) size ≤ start → lines = []) ∧
      lines.length = (bytes.length + 1) / 2 ∧
      (∀ k line, lines[k]? = some line → Shows start bytes k line ∧
        line.bytes.length = if 2 * k + 1 = bytes.length then 2 else 4) ∧
      String.join (lines.map Line.bytes) = hexText bytes := by
  have hb := rams.backed
  have memoryEnd : (m.bus.mappedEnd : Int) = size := hb.mappedEnd_eq (by omega) covered
  have mapped : ∀ k < (min (start + length) size - start).toNat, m.bus.Maps (start + k) := by
    intro k inside
    exact (covered (start + k)).mpr ⟨by omega, by omega⟩
  -- The block is named first, and the listing is a function of it.
  obtain ⟨bytes, count, holds⟩ := hb.fitted.exists_holds mapped
  have listed : lines? m.bus start length = .ok (linesOf start bytes) :=
    lines?_of_holds holds (by rw [memoryEnd, count])
  refine ⟨bytes, linesOf start bytes, ?_, count, holds, ?_, length_linesOf start bytes, ?_,
    join_bytes_linesOf start bytes⟩
  · rw [serve, Attempt.ask_apply, Query.answer, listed]
    rfl
  · intro empty
    have none : bytes.length = 0 := by omega
    rw [List.length_eq_zero_iff.mp none]
    rfl
  · intro k line found
    have shown := shows_linesOf found
    exact ⟨shown, shown.length_bytes⟩

/-- A memory of three bytes ends in a line for the last of them. -/
theorem listing_past_odd_end :
    (ofImage [0x12, 0x00, 0xA2] (by decide)).bus.OfRams ∧
      (∀ a, (ofImage [0x12, 0x00, 0xA2] (by decide)).bus.Maps a ↔ 0 ≤ a ∧ a < (3 : Nat)) ∧
      ∃ lines, serve (.look (.list 0 100)) (ofImage [0x12, 0x00, 0xA2] (by decide)) =
          (.ok (.lines lines), ofImage [0x12, 0x00, 0xA2] (by decide)) ∧
        lines.length = 2 ∧ String.join (lines.map Line.bytes) = "1200A2" := by
  have rams := ofRams_ofImage [0x12, 0x00, 0xA2] (by decide)
  have covered (a : Int) :
      (ofImage [0x12, 0x00, 0xA2] (by decide)).bus.Maps a ↔ 0 ≤ a ∧ a < (3 : Nat) :=
    Bus.maps_single
  obtain ⟨bytes, lines, listed, count, holds, _, lineCount, _, digits⟩ :=
    listing_covers_range rams covered (Int.le_refl 0) 100
  obtain ⟨x, y, z, rfl⟩ := List.length_eq_three.mp count
  simp only [Bus.holds_cons] at holds
  obtain ⟨first, second, third, _⟩ := holds
  have x_eq : (0x12 : UInt8) = x := Except.ok.inj first
  have y_eq : (0x00 : UInt8) = y := Except.ok.inj second
  have z_eq : (0xA2 : UInt8) = z := Except.ok.inj third
  subst x_eq y_eq z_eq
  exact ⟨rams, covered, lines, listed, lineCount, digits⟩

end Machine

end Chip8
