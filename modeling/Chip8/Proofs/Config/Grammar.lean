import Chip8.Host.Usual
import Chip8.Config
import Chip8.Proofs.Config.IntegerText
import Chip8.Proofs.Config.Reading
import Mathlib.Data.List.DropRight

/-!
The grammar of integer texts.

An integer is spelled by a run of decimal digits with or without a sign, or by a run of hexadecimal
digits behind `0x` (`Spells`). No character of such a text is blank, so the text is what remains
when the blanks around it are taken away (`strip_append`). What is read is spelled
(`spells_of_stripped?`), and what is spelled is read where it is not too long (`Spells.stripped?`).
Together these say which texts stand for which integers (`integer_texts_exact`).
-/

namespace Chip8

/-! ### Blanks around a text -/

namespace Text

variable {p : Char → Bool} {core : List Char}

theorem rdropWhile_append (kept : ∀ c ∈ core, ¬ p c) (rest : List Char) :
    (core ++ rest).rdropWhile p = core ++ rest.rdropWhile p := by
  induction rest using List.reverseRecOn with
  | nil =>
      rw [List.append_nil, List.rdropWhile_nil, List.append_nil]
      exact List.rdropWhile_eq_self_iff.mpr fun h => kept _ (List.getLast_mem h)
  | append_singleton rest c ih =>
      rw [← List.append_assoc]
      by_cases drops : p c
      · rw [List.rdropWhile_concat_pos _ _ _ drops, List.rdropWhile_concat_pos _ _ _ drops, ih]
      · rw [List.rdropWhile_concat_neg _ _ _ drops, List.rdropWhile_concat_neg _ _ _ drops,
          List.append_assoc]

/-- What is behind the blanks in front of a text is not touched up to its last character that is not
blank. -/
theorem strip_append {left : List Char} (before : ∀ c ∈ left, isBlank c)
    (kept : ∀ c ∈ core, ¬ isBlank c) (nonempty : core ≠ []) (rest : List Char) :
    strip (left ++ (core ++ rest)) = core ++ rest.rdropWhile isBlank := by
  have front : (left ++ (core ++ rest)).dropWhile isBlank = core ++ rest := by
    rw [List.dropWhile_append_of_pos before]
    cases core with
    | nil => exact absurd rfl nonempty
    | cons c core => rw [List.cons_append, List.dropWhile_cons_of_neg (kept c List.mem_cons_self)]
  rw [strip, trim, front]
  exact rdropWhile_append kept rest

/-- Only blanks are taken away from a text. -/
theorem exists_blanks_around (cs : List Char) :
    ∃ left right, cs = left ++ (strip cs ++ right) ∧ ∀ c ∈ left ++ right, isBlank c := by
  refine ⟨cs.takeWhile isBlank, (cs.dropWhile isBlank).rtakeWhile isBlank, ?_, ?_⟩
  · have back : strip cs ++ (cs.dropWhile isBlank).rtakeWhile isBlank = cs.dropWhile isBlank :=
      List.rdropWhile_append_rtakeWhile
    rw [back, List.takeWhile_append_dropWhile]
  · intro c mem
    rcases List.mem_append.mp mem with front | back
    · exact List.mem_takeWhile_imp front
    · exact List.mem_rtakeWhile_imp back

end Text

namespace IntegerText

open Numeral Text

/-! ### Runs of digits -/

/-- A text is a run of digits, with single underscores between some of them. -/
inductive DigitRun (digit? : Char → Option Nat) : List Char → List Nat → Prop where
  | last {c : Char} {d : Nat} : digit? c = some d → DigitRun digit? [c] [d]
  | next {c : Char} {d : Nat} {cs : List Char} {ds : List Nat} :
      digit? c = some d → DigitRun digit? cs ds → DigitRun digit? (c :: cs) (d :: ds)
  | apart {c : Char} {d : Nat} {cs : List Char} {ds : List Nat} :
      digit? c = some d → DigitRun digit? cs ds → DigitRun digit? (c :: '_' :: cs) (d :: ds)

section DigitRun

variable {digit? : Char → Option Nat} {c : Char} {cs : List Char} {ds : List Nat}

/-- The first character of a run is a digit. -/
theorem DigitRun.exists_first (h : DigitRun digit? cs ds) :
    ∃ c d cs', cs = c :: cs' ∧ digit? c = some d := by
  cases h with
  | last digit | next digit _ | apart digit _ => exact ⟨_, _, _, rfl, digit⟩

theorem DigitRun.length_le (h : DigitRun digit? cs ds) : ds.length ≤ cs.length := by
  induction h with
  | last _ => exact Nat.le_refl 1
  | next _ _ ih => exact Nat.succ_le_succ ih
  | apart _ _ ih => exact Nat.le_succ_of_le (Nat.succ_le_succ ih)

theorem DigitRun.digit_or_mark (h : DigitRun digit? cs ds) (mem : c ∈ cs) :
    (∃ d, digit? c = some d) ∨ c = '_' := by
  induction h with
  | last digit =>
      rw [List.mem_singleton.mp mem]
      exact .inl ⟨_, digit⟩
  | next digit _ ih =>
      rcases List.mem_cons.mp mem with rfl | later
      · exact .inl ⟨_, digit⟩
      · exact ih later
  | apart digit _ ih =>
      rcases List.mem_cons.mp mem with rfl | later
      · exact .inl ⟨_, digit⟩
      · rcases List.mem_cons.mp later with rfl | later
        · exact .inr rfl
        · exact ih later

/-- What may stand behind a digit of a run: nothing, more of the run, or more of it behind an
underscore. -/
inductive Behind (digit? : Char → Option Nat) : List Char → List Nat → Prop where
  | nothing : Behind digit? [] []
  | more {cs : List Char} {ds : List Nat} : DigitRun digit? cs ds → Behind digit? cs ds
  | apart {cs : List Char} {ds : List Nat} : DigitRun digit? cs ds → Behind digit? ('_' :: cs) ds

/-- A run is a digit and what may stand behind it. -/
theorem digitRun_cons_iff :
    DigitRun digit? (c :: cs) ds ↔
      ∃ d more, digit? c = some d ∧ Behind digit? cs more ∧ ds = d :: more := by
  constructor
  · intro run
    cases run with
    | last digit => exact ⟨_, _, digit, .nothing, rfl⟩
    | next digit more => exact ⟨_, _, digit, .more more, rfl⟩
    | apart digit more => exact ⟨_, _, digit, .apart more, rfl⟩
  · rintro ⟨d, more, digit, behind, rfl⟩
    cases behind with
    | nothing => exact .last digit
    | more run => exact .next digit run
    | apart run => exact .apart digit run

/-- No run begins with a character that is no digit. -/
theorem not_digitRun_cons (noDigit : digit? c = none) : ¬ DigitRun digit? (c :: cs) ds := by
  intro run
  obtain ⟨d, _, digit, _⟩ := digitRun_cons_iff.mp run
  cases noDigit.symm.trans digit

/-- Reading a digit and what is behind it, where the latter is read as it should be. -/
theorem bind_digit_eq_some_iff
    (rest : ∀ more, moreDigits? digit? cs = some more ↔ Behind digit? cs more) :
    (do let d ← digit? c; let more ← moreDigits? digit? cs; return d :: more) = some ds ↔
      DigitRun digit? (c :: cs) ds := by
  simp only [digitRun_cons_iff, ← rest, Option.bind_eq_bind, Option.bind_eq_some_iff]
  constructor
  · rintro ⟨d, digit, more, read, same⟩
    exact ⟨d, more, digit, read, (Option.some.inj same).symm⟩
  · rintro ⟨d, more, digit, read, rfl⟩
    exact ⟨d, digit, more, read, rfl⟩

/-- The digits behind the first one are read exactly if they are a run behind it. -/
theorem moreDigits?_eq_some_iff (noMark : digit? '_' = none) :
    moreDigits? digit? cs = some ds ↔ Behind digit? cs ds := by
  -- The cases are those of the reader: nothing left, an underscore before a character, a character.
  fun_induction moreDigits? digit? cs generalizing ds with
  | case1 =>
      constructor
      · rintro ⟨⟩
        exact .nothing
      · intro behind
        cases behind with
        | nothing => rfl
        | more run => cases run
  | case2 c rest ih =>
      rw [bind_digit_eq_some_iff fun _ => ih]
      constructor
      · exact .apart
      · intro behind
        cases behind with
        | more run => exact absurd run (not_digitRun_cons noMark)
        | apart run => exact run
  | case3 c rest alone ih =>
      rw [bind_digit_eq_some_iff fun _ => ih]
      constructor
      · exact .more
      · intro behind
        cases behind with
        | more run => exact run
        | apart run =>
            obtain ⟨c, _, cs, rfl, _⟩ := run.exists_first
            exact absurd rfl (alone c cs rfl)

/-- The texts that are read as digits are the runs. -/
theorem digits?_eq_some_iff (noMark : digit? '_' = none) :
    digits? digit? cs = some ds ↔ DigitRun digit? cs ds := by
  cases cs with
  | nil => exact iff_of_false nofun nofun
  | cons c cs => exact bind_digit_eq_some_iff fun _ => moreDigits?_eq_some_iff noMark

end DigitRun

/-! ### Characters -/

/-- A character is blank if one of the ranges holds its code. -/
theorem isBlank_iff {c : Char} :
    isBlank c ↔ ∃ r ∈ blankRanges, r.first ≤ c.toNat ∧ c.toNat ≤ r.last := by
  simp only [isBlank, CharRange.anyCovers, CharRange.covers, List.any_eq_true, Bool.and_eq_true,
    decide_eq_true_eq]

/-- No decimal digit of any script is blank. -/
theorem not_isBlank_of_decimalDigit? {c : Char} {d : Nat} (digit : decimalDigit? c = some d) :
    ¬ isBlank c := by
  have separate : ∀ z ∈ decimalZeros, ∀ r ∈ blankRanges, z + 10 ≤ r.first ∨ r.last < z := by decide
  rw [decimalDigit?, Option.map_eq_some_iff] at digit
  obtain ⟨z, found, _⟩ := digit
  have inside := List.find?_some found
  simp only [decide_eq_true_eq] at inside
  rw [isBlank_iff]
  rintro ⟨r, range, first, last⟩
  have := separate z (List.mem_of_find?_eq_some found) r range
  omega

/-- No hexadecimal digit is blank. -/
theorem not_isBlank_of_hexDigit? {c : Char} {d : Nat} (digit : hexDigit? c = some d) :
    ¬ isBlank c := by
  have separate : ∀ r ∈ blankRanges, r.last < 'A'.toNat ∨ 'f'.toNat < r.first := by decide
  have letter : ¬ ('A'.toNat ≤ c.toNat ∧ c.toNat ≤ 'f'.toNat ∧ isBlank c) := by
    rw [isBlank_iff]
    rintro ⟨low, high, r, range, first, last⟩
    have := separate r range
    omega
  unfold hexDigit? at digit
  split at digit
  · rename_i lower
    exact fun blank => letter ⟨Nat.le_trans (by decide) lower.1, lower.2, blank⟩
  · split at digit
    · rename_i upper
      exact fun blank => letter ⟨upper.1, Nat.le_trans upper.2 (by decide), blank⟩
    · exact not_isBlank_of_decimalDigit? digit

/-- There are no blanks in a run of digits. -/
theorem DigitRun.not_isBlank {digit? : Char → Option Nat} {cs : List Char} {ds : List Nat}
    (h : DigitRun digit? cs ds) (visible : ∀ c d, digit? c = some d → ¬ isBlank c) :
    ∀ c ∈ cs, ¬ isBlank c := by
  intro c mem
  rcases h.digit_or_mark mem with ⟨d, digit⟩ | rfl
  · exact visible c d digit
  · decide

/-! ### Spelled integers -/

/-- A text spells an integer: decimal digits with or without a sign, or hexadecimal digits behind
`0x`, which an underscore may follow. -/
inductive Spells : List Char → Int → Prop where
  | unsigned {cs : List Char} {ds : List Nat} :
      DigitRun decimalDigit? cs ds → Spells cs (value 10 ds)
  | plus {cs : List Char} {ds : List Nat} :
      DigitRun decimalDigit? cs ds → Spells ('+' :: cs) (value 10 ds)
  | minus {cs : List Char} {ds : List Nat} :
      DigitRun decimalDigit? cs ds → Spells ('-' :: cs) (-(value 10 ds : Int))
  | hexadecimal {x : Char} {cs : List Char} {ds : List Nat} : x = 'x' ∨ x = 'X' →
      DigitRun hexDigit? cs ds → Spells ('0' :: x :: cs) (value 16 ds)
  | hexadecimalApart {x : Char} {cs : List Char} {ds : List Nat} : x = 'x' ∨ x = 'X' →
      DigitRun hexDigit? cs ds → Spells ('0' :: x :: '_' :: cs) (value 16 ds)

/-- There are no blanks inside what spells an integer. -/
theorem Spells.not_isBlank {cs : List Char} {n : Int} (h : Spells cs n) :
    ∀ c ∈ cs, ¬ isBlank c := by
  cases h with
  | unsigned run => exact run.not_isBlank fun _ _ => not_isBlank_of_decimalDigit?
  | plus run | minus run =>
      refine List.forall_mem_cons.mpr ⟨by decide, ?_⟩
      exact run.not_isBlank fun _ _ => not_isBlank_of_decimalDigit?
  | hexadecimal mark run =>
      refine List.forall_mem_cons.mpr ⟨by decide, List.forall_mem_cons.mpr ⟨?_, ?_⟩⟩
      · rcases mark with rfl | rfl <;> decide
      · exact run.not_isBlank fun _ _ => not_isBlank_of_hexDigit?
  | hexadecimalApart mark run =>
      refine List.forall_mem_cons.mpr ⟨by decide, List.forall_mem_cons.mpr ⟨?_, ?_⟩⟩
      · rcases mark with rfl | rfl <;> decide
      · exact List.forall_mem_cons.mpr
          ⟨by decide, run.not_isBlank fun _ _ => not_isBlank_of_hexDigit?⟩

theorem Spells.ne_nil {cs : List Char} {n : Int} (h : Spells cs n) : cs ≠ [] := by
  cases h with
  | unsigned run =>
      obtain ⟨_, _, _, rfl, _⟩ := run.exists_first
      exact List.cons_ne_nil _ _
  | plus _ | minus _ | hexadecimal _ _ | hexadecimalApart _ _ => exact List.cons_ne_nil _ _

/-- What is read without a sign is a run of decimal digits that is not too long. -/
theorem natural?_eq_some_iff {cs : List Char} {n : Int} :
    (do let k ← natural? cs; return (k : Int)) = some n ↔
      ∃ ds, DigitRun decimalDigit? cs ds ∧ ds.length ≤ maxDecimalDigits ∧
        (value 10 ds : Int) = n := by
  have noMark : decimalDigit? '_' = none := by decide
  simp only [natural?, ← digits?_eq_some_iff noMark, Option.bind_eq_bind, Option.bind_eq_some_iff]
  constructor
  · rintro ⟨k, ⟨ds, read, short⟩, same⟩
    split at short
    · rename_i inLimit
      cases short
      exact ⟨ds, read, inLimit, Option.some.inj same⟩
    · cases short
  · rintro ⟨ds, read, short, rfl⟩
    exact ⟨value 10 ds, ⟨ds, read, if_pos short⟩, rfl⟩

/-- Behind `0x` stands a run, or a run behind an underscore. -/
theorem hexadecimal?_eq_some_iff {cs : List Char} {n : Int} :
    hexadecimal? cs = some n ↔
      ∃ ds, (DigitRun hexDigit? cs ds ∨ ∃ rest, cs = '_' :: rest ∧ DigitRun hexDigit? rest ds) ∧
        (value 16 ds : Int) = n := by
  have noMark : hexDigit? '_' = none := by decide
  unfold hexadecimal?
  split
  · rename_i rest
    simp only [Option.map_eq_some_iff, digits?_eq_some_iff noMark, List.cons.injEq, true_and,
      exists_eq_left']
    refine exists_congr fun ds => and_congr_left' ?_
    exact ⟨.inr, fun h => h.resolve_left (not_digitRun_cons noMark)⟩
  · rename_i cs plain
    simp only [Option.map_eq_some_iff, digits?_eq_some_iff noMark]
    refine exists_congr fun ds => and_congr_left' ?_
    refine ⟨.inl, fun h => h.resolve_right ?_⟩
    rintro ⟨rest, rfl, _⟩
    exact plain rest rfl

/-- A run of decimal digits does not begin like a hexadecimal text. -/
theorem not_digitRun_hexadecimal {x : Char} {cs : List Char} {ds : List Nat}
    (mark : x = 'x' ∨ x = 'X') :
    ¬ DigitRun decimalDigit? ('0' :: x :: cs) ds := by
  intro run
  have noDigit : decimalDigit? x = none ∧ x ≠ '_' := by
    rcases mark with rfl | rfl <;> decide
  rcases run.digit_or_mark (c := x) (by simp) with ⟨d, digit⟩ | underscore
  · simp [noDigit.1] at digit
  · exact noDigit.2 underscore

/-! ### Reading -/

/-- What is read as an integer spells it. -/
theorem spells_of_stripped? {cs : List Char} {n : Int} (read : stripped? cs = some n) :
    Spells cs n := by
  have behind {x : Char} {cs : List Char} (mark : x = 'x' ∨ x = 'X')
      (read : hexadecimal? cs = some n) : Spells ('0' :: x :: cs) n := by
    obtain ⟨ds, run | ⟨rest, rfl, run⟩, rfl⟩ := hexadecimal?_eq_some_iff.mp read
    · exact .hexadecimal mark run
    · exact .hexadecimalApart mark run
  unfold stripped? at read
  split at read
  · exact behind (.inl rfl) read
  · exact behind (.inr rfl) read
  · unfold decimal? at read
    split at read
    all_goals
      obtain ⟨k, natural, rfl⟩ := Option.map_eq_some_iff.mp read
      obtain ⟨ds, run, _, rfl⟩ := natural?_eq_some_iff.mp natural
    · exact .minus run
    · exact .plus run
    · exact .unsigned run

section Reading

variable {cs : List Char} {ds : List Nat}

theorem stripped?_minus (run : DigitRun decimalDigit? cs ds)
    (short : ds.length ≤ maxDecimalDigits) :
    stripped? ('-' :: cs) = some (-(value 10 ds : Int)) :=
  congrArg (Option.map fun n : Int => -n) (natural?_eq_some_iff.mpr ⟨ds, run, short, rfl⟩)

theorem stripped?_plus (run : DigitRun decimalDigit? cs ds)
    (short : ds.length ≤ maxDecimalDigits) :
    stripped? ('+' :: cs) = some (value 10 ds : Int) :=
  congrArg (Option.map fun n : Int => n) (natural?_eq_some_iff.mpr ⟨ds, run, short, rfl⟩)

theorem stripped?_unsigned (run : DigitRun decimalDigit? cs ds)
    (short : ds.length ≤ maxDecimalDigits) :
    stripped? cs = some (value 10 ds : Int) := by
  rw [stripped?.eq_3, decimal?.eq_3]
  · exact congrArg (Option.map fun n : Int => n) (natural?_eq_some_iff.mpr ⟨ds, run, short, rfl⟩)
  · rintro rest rfl
    exact not_digitRun_cons (by decide) run
  · rintro rest rfl
    exact not_digitRun_cons (by decide) run
  · rintro rest rfl
    exact not_digitRun_hexadecimal (.inl rfl) run
  · rintro rest rfl
    exact not_digitRun_hexadecimal (.inr rfl) run

/-- Digits behind `0x` are read as hexadecimal ones, with or without an underscore in front of them.
-/
theorem stripped?_hexadecimal {x : Char} (mark : x = 'x' ∨ x = 'X')
    (run : DigitRun hexDigit? cs ds ∨ ∃ rest, cs = '_' :: rest ∧ DigitRun hexDigit? rest ds) :
    stripped? ('0' :: x :: cs) = some (value 16 ds : Int) := by
  have read := hexadecimal?_eq_some_iff.mpr ⟨ds, run, rfl⟩
  rcases mark with rfl | rfl <;> exact read

/-- A text that spells an integer and is not too long is read as that integer. -/
theorem Spells.stripped? {n : Int} (h : Spells cs n) (short : cs.length ≤ maxDecimalDigits) :
    stripped? cs = some n := by
  cases h with
  | unsigned run => exact stripped?_unsigned run (Nat.le_trans run.length_le short)
  | plus run => exact stripped?_plus run (Nat.le_trans run.length_le (Nat.le_of_succ_le short))
  | minus run => exact stripped?_minus run (Nat.le_trans run.length_le (Nat.le_of_succ_le short))
  | hexadecimal mark run => exact stripped?_hexadecimal mark (.inl run)
  | hexadecimalApart mark run => exact stripped?_hexadecimal mark (.inr ⟨_, rfl, run⟩)

end Reading

/-! ### Written integers -/

/-- A text with single underscores put between some of its characters. -/
inductive Grouped : List Char → List Char → Prop where
  | last (c : Char) : Grouped [c] [c]
  | next (c : Char) {cs cs' : List Char} : Grouped cs cs' → Grouped (c :: cs) (c :: cs')
  | apart (c : Char) {cs cs' : List Char} : Grouped cs cs' → Grouped (c :: cs) (c :: '_' :: cs')

/-- Digits that are shown by characters of their own, with underscores or without, are a run. -/
theorem Reads.digitRun {digit? : Char → Option Nat} {shown : Nat → Char} {b : Nat} {ds : List Nat}
    {cs : List Char} (reads : Reads digit? shown b) (small : ∀ d ∈ ds, d < b)
    (grouped : Grouped (ds.map shown) cs) : DigitRun digit? cs ds := by
  generalize text : ds.map shown = given at grouped
  induction grouped generalizing ds with
  | last c =>
      obtain ⟨d, rest, rfl, rfl, nothing⟩ := List.map_eq_cons_iff.mp text
      rw [List.map_eq_nil_iff.mp nothing]
      exact .last (reads d (small d List.mem_cons_self)).1
  | next c _ ih =>
      obtain ⟨d, rest, rfl, rfl, more⟩ := List.map_eq_cons_iff.mp text
      obtain ⟨digit, others⟩ := List.forall_mem_cons.mp small
      exact .next (reads d digit).1 (ih others more)
  | apart c _ ih =>
      obtain ⟨d, rest, rfl, rfl, more⟩ := List.map_eq_cons_iff.mp text
      obtain ⟨digit, others⟩ := List.forall_mem_cons.mp small
      exact .apart (reads d digit).1 (ih others more)

theorem reads_hexDigit? {shown : Nat → Char} (either : shown = lowerDigit ∨ shown = upperDigit) :
    Reads hexDigit? shown 16 := by
  rcases either with rfl | rfl
  · unfold Reads
    decide
  · exact reads_upperDigit

/-- An integer in decimal, with underscores between its digits or without, is read as that integer
while it does not have too many digits. -/
theorem stripped?_of_grouped_decimal {n : Int} {cs : List Char}
    (short : (decimalNat n.natAbs).length ≤ maxDecimalDigits)
    (grouped : Grouped (decimalNat n.natAbs) cs) :
    stripped? (if n < 0 then '-' :: cs else cs) = some n ∧
      Spells (if n < 0 then '-' :: cs else cs) n := by
  have run := reads_lowerDigit.digitRun (fun _ => lt_of_mem_digits (by decide)) grouped
  rw [decimalNat, List.length_map] at short
  have size : value 10 (digits 10 n.natAbs) = n.natAbs := value_digits 10 n.natAbs
  split
  · have negative : -(value 10 (digits 10 n.natAbs) : Int) = n := by omega
    exact negative ▸ ⟨stripped?_minus run short, .minus run⟩
  · have natural : (value 10 (digits 10 n.natAbs) : Int) = n := by omega
    exact natural ▸ ⟨stripped?_unsigned run short, .unsigned run⟩

/-- A natural number in hexadecimal behind `0x`, with underscores between its digits or without and
in letters of either case, is read as that number. -/
theorem stripped?_of_grouped_hexadecimal {n : Nat} {x : Char} {shown : Nat → Char} {cs : List Char}
    (mark : x = 'x' ∨ x = 'X') (either : shown = lowerDigit ∨ shown = upperDigit)
    (grouped : Grouped ((digits 16 n).map shown) cs) :
    stripped? ('0' :: x :: cs) = some (n : Int) ∧ Spells ('0' :: x :: cs) n := by
  have run := (reads_hexDigit? either).digitRun (fun _ => lt_of_mem_digits (by decide)) grouped
  have same : (value 16 (digits 16 n) : Int) = n := by rw [value_digits]
  exact same ▸ ⟨stripped?_hexadecimal mark (.inl run), .hexadecimal mark run⟩

/-- No integer is spelled with a sign before `0x`. -/
theorem not_spells_signed_hexadecimal {sign x : Char} {rest : List Char} {n : Int}
    (signed : sign = '+' ∨ sign = '-') (mark : x = 'x' ∨ x = 'X') :
    ¬ Spells (sign :: '0' :: x :: rest) n := by
  intro spells
  rcases signed with rfl | rfl
  · cases spells with
    | unsigned run => exact not_digitRun_cons (by decide) run
    | plus run => exact not_digitRun_hexadecimal mark run
  · cases spells with
    | unsigned run => exact not_digitRun_cons (by decide) run
    | minus run => exact not_digitRun_hexadecimal mark run

end IntegerText

namespace Config

open IntegerText Numeral Text

/-- A text is read once the blanks around it are taken away. -/
theorem integer_text_eq_ok_iff [Host] {s : String} {n : Int} :
    integer (.text s) = .ok n ↔ stripped? (strip s.toList) = some n := by
  rw [integer]
  split <;> simp_all

/-- Blanks around a text that spells an integer do not matter. -/
theorem integer_text_of_spells [Host] {left core right : List Char} {n : Int}
    (blank : ∀ c ∈ left ++ right, isBlank c) (spells : Spells core n)
    (read : stripped? core = some n) :
    integer (.text (String.ofList (left ++ (core ++ right)))) = .ok n := by
  obtain ⟨before, behind⟩ := List.forall_mem_append.mp blank
  rw [integer_text_eq_ok_iff, String.toList_ofList,
    strip_append before spells.not_isBlank spells.ne_nil, List.rdropWhile_eq_nil_iff.mpr behind,
    List.append_nil, read]

/-- The integers that are read from texts. A text of at most 4300 characters stands for an integer
exactly if that integer is spelled between the blanks around it, and any other text is refused as a
bad value. An integer of at most 4300 digits in decimal, and a natural number of any size in
hexadecimal, is read back from its text, whatever blanks stand around it and however its digits are
grouped. A sign before `0x` is refused. -/
theorem integer_texts_exact [Host] :
    (∀ s : String, s.length ≤ 4300 → ∀ n, integer (.text s) = .ok n ↔
      ∃ left core right, s.toList = left ++ (core ++ right) ∧
        (∀ c ∈ left ++ right, isBlank c) ∧ Spells core n) ∧
    (∀ s e, integer (.text s) = .error e → e.isBadValue) ∧
    (∀ left right, (∀ c ∈ left ++ right, isBlank c) →
      (∀ (n : Int) (cs : List Char), (decimalNat n.natAbs).length ≤ 4300 →
        Grouped (decimalNat n.natAbs) cs →
          integer (.text (String.ofList
            (left ++ ((if n < 0 then '-' :: cs else cs) ++ right)))) = .ok n) ∧
      (∀ (n : Nat) (x : Char) (shown : Nat → Char) (cs : List Char), x = 'x' ∨ x = 'X' →
        shown = lowerDigit ∨ shown = upperDigit → Grouped ((digits 16 n).map shown) cs →
          integer (.text (String.ofList (left ++ (('0' :: x :: cs) ++ right)))) = .ok (n : Int)) ∧
      (∀ (sign x : Char) (rest : List Char), sign = '+' ∨ sign = '-' → x = 'x' ∨ x = 'X' →
        ∀ n, integer (.text (String.ofList (left ++ (sign :: '0' :: x :: rest)))) ≠ .ok n)) := by
  refine ⟨?_, ?_, fun left right blank => ⟨?_, ?_, ?_⟩⟩
  · intro s short n
    constructor
    · intro read
      obtain ⟨left, right, split, blank⟩ := exists_blanks_around s.toList
      exact ⟨left, _, right, split, blank, spells_of_stripped? (integer_text_eq_ok_iff.mp read)⟩
    · rintro ⟨left, core, right, split, blank, spells⟩
      -- A spelling within the whole text is short enough for every digit of it to count.
      have within : core.length ≤ maxDecimalDigits := by
        have length := congrArg List.length split
        rw [String.length_toList, List.length_append, List.length_append] at length
        simp only [maxDecimalDigits]
        omega
      rw [← String.ofList_toList (s := s), split]
      exact integer_text_of_spells blank spells (spells.stripped? within)
  · exact fun s e => isBadValue_of_integer_text
  · intro n cs short grouped
    obtain ⟨read, spells⟩ := stripped?_of_grouped_decimal short grouped
    exact integer_text_of_spells blank spells read
  · intro n x shown cs mark either grouped
    obtain ⟨read, spells⟩ := stripped?_of_grouped_hexadecimal mark either grouped
    exact integer_text_of_spells blank spells read
  · intro sign x rest signed mark n read
    rw [integer_text_eq_ok_iff, String.toList_ofList] at read
    -- The sign is no blank, so stripping leaves it in front of `0x`.
    have none : [sign, '0', x].any isBlank = false := by
      rcases signed with rfl | rfl <;> rcases mark with rfl | rfl <;> decide
    have visible : ∀ c ∈ [sign, '0', x], ¬ isBlank c := List.any_eq_false.mp none
    have before := (List.forall_mem_append.mp blank).1
    have kept := strip_append before visible (List.cons_ne_nil _ _) rest
    rw [List.cons_append, List.cons_append, List.cons_append, List.nil_append] at kept
    rw [kept] at read
    exact not_spells_signed_hexadecimal signed mark (spells_of_stripped? read)

/-- Blanks, signs, either case and grouped digits are read, but no sign before `0x`. -/
theorem grouped_texts_read :
    integer (.text "\t-1_000 ") = .ok (-1000) ∧ integer (.text "\n+1_0") = .ok 10 ∧
      integer (.text " 0XF_F\n") = .ok 255 ∧ ∀ n, integer (.text "-0x1") ≠ .ok n := by
  have thousand : DigitRun decimalDigit? ['1', '_', '0', '0', '0'] [1, 0, 0, 0] :=
    .apart (by decide) (.next (by decide) (.next (by decide) (.last (by decide))))
  have ten : DigitRun decimalDigit? ['1', '_', '0'] [1, 0] := .apart (by decide) (.last (by decide))
  have shown : (digits 16 255).map upperDigit = ['F', 'F'] := by decide +kernel
  have blank (cs : List Char) (blanks : cs.all isBlank) : ∀ c ∈ cs, isBlank c :=
    List.all_eq_true.mp blanks
  obtain ⟨spells, _, written⟩ := integer_texts_exact
  refine ⟨?_, ?_, ?_, ?_⟩
  · exact (spells _ (by decide) _).mpr ⟨['\t'], _, [' '], rfl, blank _ rfl, .minus thousand⟩
  · exact (spells _ (by decide) _).mpr ⟨['\n'], _, [], rfl, blank _ rfl, .plus ten⟩
  · exact (written [' '] ['\n'] (blank _ rfl)).2.1 255 'X' upperDigit ['F', '_', 'F'] (.inr rfl)
      (.inr rfl) (shown ▸ .apart 'F' (.last 'F'))
  · exact (written [] [] (blank _ rfl)).2.2 '-' 'x' ['1'] (.inr rfl) (.inl rfl)

end Config

end Chip8
