import Chip8.Cpu
import Chip8.Proofs.Config.IntegerText

/-!
Assembly text, read back.

The text of an operation falls into words again, its mnemonic and its operands (`words_text`), since
none of these has a blank or a comma in it. An operand is read back from its text
(`Operand.read?_text`), and an instruction is put together again from its mnemonic and operands
(`assemble?_eq`). So operations with the same text stand for the same instruction, or both for none
and have the same word (`Operation.eq_of_text_eq`).
-/

namespace Chip8

open Numeral IntegerText

/-! ### Texts without separators -/

/-- Whether a text has neither blanks nor commas. -/
def IsPlain (s : String) : Prop := ' ' ∉ s.toList ∧ ',' ∉ s.toList

instance (s : String) : Decidable (IsPlain s) := inferInstanceAs (Decidable (_ ∧ _))

theorem IsPlain.append {s t : String} (hs : IsPlain s) (ht : IsPlain t) : IsPlain (s ++ t) := by
  simp only [IsPlain, String.toList_append, List.mem_append, not_or]
  exact ⟨⟨hs.1, ht.1⟩, ⟨hs.2, ht.2⟩⟩

/-- The sign and the digits of a number are plain. -/
theorem isPlain_of_digits {s : String} {negative : Prop} [Decidable negative] {shown : Nat → Char}
    {b : Nat} {ds : List Nat} (small : ∀ d ∈ ds, d < b)
    (plain : ∀ d < b, shown d ≠ ' ' ∧ shown d ≠ ',')
    (text : s.toList = (if negative then ['-'] else []) ++ ds.map shown) : IsPlain s := by
  have sign : ∀ c ∈ if negative then ['-'] else [], c = '-' := by
    split <;> simp
  have none_of {c : Char} (separator : c = ' ' ∨ c = ',') : c ∉ s.toList := by
    rw [text, List.mem_append, List.mem_map]
    rintro (mem | ⟨d, mem, rfl⟩)
    · obtain rfl := sign c mem
      revert separator
      decide
    · exact separator.elim (plain d (small d mem)).1 (plain d (small d mem)).2
  exact ⟨none_of (.inl rfl), none_of (.inr rfl)⟩

theorem isPlain_hex (width : Nat) (n : Int) : IsPlain (hex width n) := by
  obtain ⟨ds, text, _, small, _⟩ := toList_hex width n
  exact isPlain_of_digits small (by decide) text

theorem isPlain_decimal (n : Int) : IsPlain (decimal n) :=
  isPlain_of_digits (fun _ => lt_of_mem_digits (by decide)) (by decide) (toList_decimal n)

/-! ### Operands -/

inductive Operand where
  | register (x : Register)
  | target (t : Target)
  | byte (b : UInt8)
  /-- A number of rows. -/
  | rows (n : Fin 16)
  /-- The index register. -/
  | index
  | delay
  | sound
  | key
  | glyph
  /-- The memory that three decimal digits are stored in. -/
  | threeDigits
  /-- The memory that registers are stored in and loaded from. -/
  | block
  deriving DecidableEq, Repr

namespace Operand

def text : Operand → String
  | register x => Instruction.registerName x
  | target t => Instruction.targetText t
  | byte b => Instruction.byteText b
  | rows n => "#" ++ decimal n.val
  | index => "I"
  | delay => "DT"
  | sound => "ST"
  | key => "K"
  | glyph => "F"
  | threeDigits => "B"
  | block => "[I]"

/-- The number of a field with `k` values, unless it is too large. -/
def field? (k : Nat) (n : Int) : Option (Fin k) :=
  if h : n.toNat < k then some ⟨n.toNat, h⟩ else none

theorem field?_val {k : Nat} (x : Fin k) : field? k x.val = some x := dif_pos x.isLt

def read? : List Char → Option Operand
  | ['I'] => some index
  | ['D', 'T'] => some delay
  | ['S', 'T'] => some sound
  | ['K'] => some key
  | ['F'] => some glyph
  | ['B'] => some threeDigits
  | ['[', 'I', ']'] => some block
  | 'V' :: cs => ((signedHex? cs).bind (field? 16)).map register
  | '$' :: cs => ((signedHex? cs).bind (field? 4096)).map target
  | '#' :: '$' :: cs => (signedHex? cs).map fun n => byte (UInt8.ofNat n.toNat)
  | '#' :: cs => ((decimal? cs).bind (field? 16)).map rows
  | _ => none

/-- A number of rows is told from a byte by its first digit. -/
theorem read?_rows (n : Fin 16) : read? (rows n).text.toList = some (rows n) := by
  have short : n.val < Nat.pow 10 2 := Nat.lt_trans n.isLt (by decide)
  have read := decimal?_decimal (isWritable_of_lt short (by decide))
  have digit : ∀ cs, (decimal n.val).toList ≠ '$' :: cs := by
    intro cs dollar
    have unread : decimal? ('$' :: cs) = none := rfl
    rw [dollar, unread] at read
    cases read
  have mark : (rows n).text.toList = '#' :: (decimal n.val).toList := String.toList_append
  rw [mark, read?, read, Option.bind_some, field?_val, Option.map_some]
  exact digit

/-- An operand is read back from its text. -/
theorem read?_text (o : Operand) : read? o.text.toList = some o := by
  cases o with
  | register x =>
      have mark : (register x).text.toList = 'V' :: (hex 1 x.val).toList := String.toList_append
      rw [mark, read?, signedHex?_hex, Option.bind_some, field?_val, Option.map_some]
  | target t =>
      have mark : (target t).text.toList = '$' :: (hex 3 t.val).toList := String.toList_append
      rw [mark, read?, signedHex?_hex, Option.bind_some, field?_val, Option.map_some]
  | byte b =>
      have marks : (byte b).text.toList = '#' :: '$' :: (hex 2 b.toNat).toList :=
        String.toList_append
      rw [marks, read?, signedHex?_hex, Option.map_some, Int.toNat_natCast, UInt8.ofNat_toNat]
  | rows n => exact read?_rows n
  | _ => rfl

/-- Operands with the same text are the same, since each is read back from it. -/
theorem text_injective : Function.Injective text := by
  intro o o' same
  have read := read?_text o
  rw [same, read?_text] at read
  exact (Option.some.inj read).symm

theorem isPlain_text (o : Operand) : IsPlain o.text := by
  cases o with
  | register x => exact IsPlain.append (by decide) (isPlain_hex _ _)
  | target t => exact IsPlain.append (by decide) (isPlain_hex _ _)
  | byte b => exact IsPlain.append (by decide) (isPlain_hex _ _)
  | rows n => exact IsPlain.append (by decide) (isPlain_decimal _)
  | _ => decide

end Operand

/-! ### Instructions -/

namespace Instruction

/-- The operands of an instruction apart from their texts. -/
def operandList : Instruction → List Operand
  | .clear | .ret => []
  | .jump t | .call t => [.target t]
  | .skipIfByte x b | .skipUnlessByte x b | .loadByte x b | .addByte x b | .random x b =>
    [.register x, .byte b]
  | .skipIfEqual x y | .skipUnlessEqual x y | .copy x y | .or x y | .and x y | .xor x y | .add x y
  | .sub x y | .subFrom x y => [.register x, .register y]
  | .shiftRight x | .shiftLeft x | .skipIfKey x | .skipUnlessKey x => [.register x]
  | .loadIndex t => [.index, .target t]
  | .jumpOffset t => [.register (Cpu.register 0), .target t]
  | .draw x y rows => [.register x, .register y, .rows rows]
  | .readDelay x => [.register x, .delay]
  | .awaitKey x => [.register x, .key]
  | .setDelay x => [.delay, .register x]
  | .setSound x => [.sound, .register x]
  | .addIndex x => [.index, .register x]
  | .loadGlyph x => [.glyph, .register x]
  | .storeDecimal x => [.threeDigits, .register x]
  | .storeRegisters x => [.block, .register x]
  | .loadRegisters x => [.register x, .block]

/-- The operands that are shown are the texts of those that an instruction has. -/
theorem operands_eq (i : Instruction) : i.operands = i.operandList.map Operand.text := by
  cases i with
  | jumpOffset t =>
      have zero : hex 1 0 = "0" := hex_eq (k := 0) (n := 0) (by decide)
      have first : registerName (Cpu.register 0) = "V0" := congrArg ("V" ++ ·) zero
      simp only [operands, operandList, List.map_cons, List.map_nil, Operand.text, first]
  | _ => rfl

/-- The instruction with a mnemonic and operands. -/
def assemble? : String → List Operand → Option Instruction
  | "CLS", [] => some .clear
  | "RET", [] => some .ret
  | "JP", [.target t] => some (.jump t)
  | "JP", [.register _, .target t] => some (.jumpOffset t)
  | "CALL", [.target t] => some (.call t)
  | "SE", [.register x, .byte b] => some (.skipIfByte x b)
  | "SE", [.register x, .register y] => some (.skipIfEqual x y)
  | "SNE", [.register x, .byte b] => some (.skipUnlessByte x b)
  | "SNE", [.register x, .register y] => some (.skipUnlessEqual x y)
  | "LD", [.register x, .byte b] => some (.loadByte x b)
  | "LD", [.register x, .register y] => some (.copy x y)
  | "LD", [.index, .target t] => some (.loadIndex t)
  | "LD", [.register x, .delay] => some (.readDelay x)
  | "LD", [.register x, .key] => some (.awaitKey x)
  | "LD", [.delay, .register x] => some (.setDelay x)
  | "LD", [.sound, .register x] => some (.setSound x)
  | "LD", [.glyph, .register x] => some (.loadGlyph x)
  | "LD", [.threeDigits, .register x] => some (.storeDecimal x)
  | "LD", [.block, .register x] => some (.storeRegisters x)
  | "LD", [.register x, .block] => some (.loadRegisters x)
  | "ADD", [.register x, .byte b] => some (.addByte x b)
  | "ADD", [.register x, .register y] => some (.add x y)
  | "ADD", [.index, .register x] => some (.addIndex x)
  | "OR", [.register x, .register y] => some (.or x y)
  | "AND", [.register x, .register y] => some (.and x y)
  | "XOR", [.register x, .register y] => some (.xor x y)
  | "SUB", [.register x, .register y] => some (.sub x y)
  | "SUBN", [.register x, .register y] => some (.subFrom x y)
  | "SHR", [.register x] => some (.shiftRight x)
  | "SHL", [.register x] => some (.shiftLeft x)
  | "RND", [.register x, .byte b] => some (.random x b)
  | "DRW", [.register x, .register y, .rows n] => some (.draw x y n)
  | "SKP", [.register x] => some (.skipIfKey x)
  | "SKNP", [.register x] => some (.skipUnlessKey x)
  | _, _ => none

/-- An instruction is put together again from its mnemonic and operands. -/
theorem assemble?_eq (i : Instruction) : assemble? i.mnemonic i.operandList = some i := by
  cases i <;> rfl

/-- An instruction is known by its mnemonic and its operands. -/
theorem eq_of_texts_eq {i i' : Instruction} (mnemonics : i.mnemonic = i'.mnemonic)
    (operands : i.operands = i'.operands) : i = i' := by
  rw [operands_eq, operands_eq] at operands
  have lists : i.operandList = i'.operandList :=
    (List.map_inj_right fun _ _ same => Operand.text_injective same).mp operands
  have assembled := i.assemble?_eq
  rw [mnemonics, lists, i'.assemble?_eq] at assembled
  exact (Option.some.inj assembled).symm

theorem isPlain_mnemonic (i : Instruction) : IsPlain i.mnemonic := by
  cases i <;> (rw [mnemonic]; decide)

theorem mnemonic_ne_unknown (i : Instruction) : i.mnemonic ≠ "UNKNOWN" := by
  cases i <;> (rw [mnemonic]; decide)

end Instruction

/-! ### Operations -/

namespace Operation

/-- The words of a text: what stands between its blanks, without the commas. -/
def words (text : String) : List (List Char) := (text.toList.filter (· != ',')).splitOn ' '

/-- Without its commas a list of parts has only blanks between them. -/
theorem filter_intercalate {parts : List (List Char)} (plain : ∀ part ∈ parts, ',' ∉ part) :
    ([',', ' '].intercalate parts).filter (· != ',') = [' '].intercalate parts := by
  have kept : ∀ part ∈ parts, part.filter (· != ',') = part := by
    intro part mem
    refine List.filter_eq_self.mpr fun c inside => bne_iff_ne.mpr ?_
    rintro rfl
    exact plain part mem inside
  induction parts with
  | nil => rfl
  | cons part rest ih =>
      have later := ih (fun part mem => plain part (List.mem_cons_of_mem _ mem))
        fun part mem => kept part (List.mem_cons_of_mem _ mem)
      have first := kept part List.mem_cons_self
      cases rest with
      | nil => rw [List.intercalate_singleton, List.intercalate_singleton, first]
      | cons next rest =>
          rw [List.intercalate_cons_cons, List.intercalate_cons_cons, List.filter_append,
            List.filter_append, first, later]
          rfl

/-- No instruction is called unknown, so only words without one are. -/
theorem mnemonic_eq_unknown_iff (o : Operation) :
    o.mnemonic = "UNKNOWN" ↔ o.instruction? = none := by
  unfold mnemonic
  cases o.instruction? with
  | some i => simp only [i.mnemonic_ne_unknown, reduceCtorEq]
  | none => simp only

/-- The mnemonic and the operands have neither blanks nor commas. -/
theorem isPlain_of_mem {o : Operation} {s : String} (mem : s ∈ o.mnemonic :: o.operands) :
    IsPlain s := by
  unfold mnemonic operands at mem
  cases known : o.instruction? with
  | some i =>
      simp only [known, i.operands_eq] at mem
      rcases List.mem_cons.mp mem with rfl | listed
      · exact i.isPlain_mnemonic
      · obtain ⟨operand, _, rfl⟩ := List.mem_map.mp listed
        exact operand.isPlain_text
  | none =>
      simp only [known, List.mem_cons, List.not_mem_nil, or_false] at mem
      rcases mem with rfl | rfl
      · decide
      · exact IsPlain.append (by decide) (isPlain_hex 4 o.word)

/-- The text without its commas is mnemonic and operands with single blanks between them. -/
theorem filter_text (o : Operation) :
    o.text.toList.filter (· != ',') =
      [' '].intercalate ((o.mnemonic :: o.operands).map String.toList) := by
  have noComma : ∀ part ∈ (o.mnemonic :: o.operands).map String.toList, ',' ∉ part := by
    intro part mem
    obtain ⟨s, inside, rfl⟩ := List.mem_map.mp mem
    exact (isPlain_of_mem inside).2
  rw [← filter_intercalate noComma, text]
  cases o.operands with
  | nil => rw [List.map_singleton, List.intercalate_singleton]
  | cons first rest =>
      rw [List.map_cons, List.map_cons, List.intercalate_cons_cons, ← List.map_cons]
      simp only [String.toList_append, String.toList_intercalate, List.filter_append]
      rfl

/-- The words of the text are the mnemonic and the operands. -/
theorem words_text (o : Operation) :
    words o.text = (o.mnemonic :: o.operands).map String.toList := by
  rw [words, filter_text]
  refine List.splitOn_intercalate ' ' (fun part mem => ?_) (List.cons_ne_nil _ _)
  obtain ⟨s, inside, rfl⟩ := List.mem_map.mp mem
  exact (isPlain_of_mem inside).1

/-- Operations with the same text stand for the same instruction, or both for none and have the same
word. -/
theorem eq_of_text_eq {o o' : Operation} (same : o.text = o'.text) :
    o.instruction? = o'.instruction? ∧ (o.instruction? = none → o.word = o'.word) := by
  have alike : o.mnemonic :: o.operands = o'.mnemonic :: o'.operands := by
    have same_words := congrArg words same
    rw [words_text, words_text] at same_words
    exact (List.map_inj_right fun _ _ => String.toList_inj.mp).mp same_words
  obtain ⟨mnemonics, operands⟩ := List.cons.inj alike
  have unknown : o.instruction? = none ↔ o'.instruction? = none := by
    rw [← mnemonic_eq_unknown_iff, ← mnemonic_eq_unknown_iff, mnemonics]
  cases known : o.instruction? with
  | some i =>
      cases known' : o'.instruction? with
      | some i' =>
          simp only [mnemonic, Operation.operands, known, known'] at mnemonics operands
          refine ⟨congrArg some (Instruction.eq_of_texts_eq mnemonics operands), fun absent => ?_⟩
          cases absent
      | none =>
          rw [unknown.mpr known'] at known
          cases known
  | none =>
      have known' := unknown.mp known
      simp only [Operation.operands, known, known', List.cons.injEq, and_true] at operands
      have words : o.hexWord = o'.hexWord := (String.append_right_inj "$").mp operands
      exact ⟨known'.symm, fun _ => hex_injective 4 words⟩

end Operation

end Chip8
