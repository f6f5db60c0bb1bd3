import Chip8.Host.Usual
import Chip8.Proofs.Config.Reading
import Mathlib.Data.List.TakeWhile

/-!
Which data is read as a configuration, and as which one.

Sections, settings and registers each have a relation to what is read from them: `HasSection`,
`HasSetting`, `HasOptional` and `Names`. A mapping is acceptable when all of them exist and the
checked settings are in range (`Acceptable`), and the configuration is the one that they describe
(`Describes`). Only a key that has to be shown stands in the way: an acceptable mapping is read
exactly if its unknown keys and the keys of its registers can be shown. Whatever goes wrong is a bad
value, unless a value in the data is too deep to be shown (`acceptable_data_read_iff`).
-/

namespace Chip8.Config

variable {entries inner : List (Datum × Datum)} {name : String}

/-! ### Sections and settings -/

/-- The entries of a section: none where the section is absent or null. -/
inductive HasSection (entries : List (Datum × Datum)) (name : String) :
    List (Datum × Datum) → Prop where
  | absent : Datum.lookup name entries = none → HasSection entries name []
  | null : Datum.lookup name entries = some .null → HasSection entries name []
  | map {inner : List (Datum × Datum)} : Datum.lookup name entries = some (.map inner) →
      HasSection entries name inner

/-- The integer that a setting stands for: a default where the setting is absent, and otherwise the
integer that its value stands for. -/
inductive HasSetting [Host] (entries : List (Datum × Datum)) (name : String) (value : Int) :
    Int → Prop where
  | absent : Datum.lookup name entries = none → HasSetting entries name value value
  | present {d : Datum} {n : Int} : Datum.lookup name entries = some d → integer d = .ok n →
      HasSetting entries name value n

/-- The integer that a setting stands for which may be left open. -/
inductive HasOptional [Host] (entries : List (Datum × Datum)) (name : String) :
    Option Int → Prop where
  | absent : Datum.lookup name entries = none → HasOptional entries name none
  | null : Datum.lookup name entries = some .null → HasOptional entries name none
  | present {d : Datum} {n : Int} : Datum.lookup name entries = some d → integer d = .ok n →
      HasOptional entries name (some n)

theorem sectionEntries_eq_ok_iff :
    sectionEntries entries name = .ok inner ↔ HasSection entries name inner := by
  unfold sectionEntries
  constructor
  · intro read
    split at read <;> cases read
    · exact .absent ‹_›
    · exact .null ‹_›
    · exact .map ‹_›
  · intro has
    cases has with
    | absent found | null found | map found => simp only [found]

/-- The entries of a section are determined. -/
theorem HasSection.unique {inner' : List (Datum × Datum)} (h : HasSection entries name inner)
    (h' : HasSection entries name inner') : inner = inner' := by
  have read := sectionEntries_eq_ok_iff.mpr h
  rw [sectionEntries_eq_ok_iff.mpr h'] at read
  exact (Except.ok.inj read).symm

/-- A section is no deeper than what it is a section of. -/
theorem depth_le_of_sectionEntries (read : sectionEntries entries name = .ok inner) :
    Datum.depthOfEntries inner ≤ Datum.depthOfEntries entries := by
  cases sectionEntries_eq_ok_iff.mp read with
  | absent | null => exact Nat.zero_le _
  | map found =>
      have below := (Datum.depth_le_of_entry (Datum.mem_of_lookup found)).2
      simp only [Datum.depth] at below
      omega

theorem setting_eq_ok_iff [Host] {value n : Int} :
    setting entries name value = .ok n ↔ HasSetting entries name value n := by
  unfold setting
  constructor
  · intro read
    split at read
    · exact .present ‹_› read
    · cases read
      exact .absent ‹_›
  · intro has
    cases has with
    | absent found => simp only [found]
    | present found read => simp only [found, read]

theorem optionalSetting_eq_ok_iff [Host] {n? : Option Int} :
    optionalSetting entries name = .ok n? ↔ HasOptional entries name n? := by
  unfold optionalSetting
  constructor
  · intro read
    split at read
    · cases read
      exact .absent ‹_›
    · cases read
      exact .null ‹_›
    · rename_i d found _
      cases value : integer d with
      | ok n =>
          rw [value] at read
          cases read
          exact .present ‹_› value
      | error e =>
          rw [value] at read
          cases read
  · intro has
    cases has with
    | absent found | null found => simp only [found]
    | present found read =>
        rename_i d n
        cases d with
        | null =>
            obtain ⟨_, _, thrown⟩ := bind_eq_ok_iff.mp read
            cases thrown
        | _ => simp only [found, read, Except.map]

/-! ### The sections of a configuration -/

structure Sections where
  memory : List (Datum × Datum)
  display : List (Datum × Datum)
  timing : List (Datum × Datum)
  initial : List (Datum × Datum)
  registers : List (Datum × Datum)

/-- Entries at the top have these sections: each of them is absent, null or a mapping. -/
structure Sections.Of (s : Sections) (entries : List (Datum × Datum)) : Prop where
  memory : HasSection entries "memory" s.memory
  display : HasSection entries "display" s.display
  timing : HasSection entries "timing" s.timing
  initial : HasSection entries "initial_state" s.initial
  registers : HasSection s.initial "registers" s.registers

variable {s : Sections} {config : Config}

/-- The sections of entries are determined. -/
theorem Sections.Of.unique {s' : Sections} (h : s.Of entries) (h' : s'.Of entries) : s = s' := by
  have initial := h.initial.unique h'.initial
  have registers := h.registers
  rw [initial] at registers
  cases s
  cases s'
  rw [Sections.mk.injEq]
  exact ⟨h.memory.unique h'.memory, h.display.unique h'.display, h.timing.unique h'.timing, initial,
    registers.unique h'.registers⟩

/-! ### Registers -/

/-- Under a name stands the value that was put there last. -/
theorem lookup_putRegister (rs : List (String × Int)) (name other : String) (value : Int) :
    (putRegister name value rs).lookup other =
      if other = name then some value else rs.lookup other := by
  induction rs with
  | nil => exact lookup_single name other value
  | cons entry rs ih =>
      obtain ⟨first, v⟩ := entry
      rw [putRegister]
      by_cases here : first = name
      · subst here
        by_cases same : other = first
        · simp [same]
        · simp [same, List.lookup_cons, beq_eq_false_iff_ne.mpr same]
      · rw [if_neg here, List.lookup_cons, List.lookup_cons, ih]
        by_cases same : other = first
        · simp [same, here]
        · simp [beq_eq_false_iff_ne.mpr same]

/-- One name more, unless it was there before. -/
theorem mem_names_putRegister {rs : List (String × Int)} {name other : String} {value : Int} :
    other ∈ (putRegister name value rs).map Prod.fst ↔ other = name ∨ other ∈ rs.map Prod.fst := by
  induction rs with
  | nil => simp [putRegister]
  | cons entry rs ih =>
      obtain ⟨first, v⟩ := entry
      rw [putRegister]
      by_cases here : first = name
      · simp [here]
      · rw [if_neg here, List.map_cons, List.mem_cons, ih, List.map_cons, List.mem_cons]
        exact or_left_comm

/-- No name comes up twice. -/
theorem nodup_putRegister {rs : List (String × Int)} (distinct : (rs.map Prod.fst).Nodup)
    (name : String) (value : Int) : ((putRegister name value rs).map Prod.fst).Nodup := by
  induction rs with
  | nil => simp [putRegister]
  | cons entry rs ih =>
      obtain ⟨first, v⟩ := entry
      obtain ⟨fresh, rest⟩ := List.nodup_cons.mp distinct
      rw [putRegister]
      by_cases here : first = name
      · rw [if_pos here]
        exact distinct
      · rw [if_neg here, List.map_cons, List.nodup_cons, mem_names_putRegister]
        exact ⟨fun mem => mem.elim here fresh, ih rest⟩

/-- The last entry whose key has a name for its text in upper case. -/
def lastNamed? (entries : List (Datum × Datum)) (name : String) : Option (Datum × Datum) :=
  entries.reverse.find? fun entry => Text.upper entry.1.outerText = name

theorem lastNamed?_cons (entry : Datum × Datum) (entries : List (Datum × Datum)) (name : String) :
    lastNamed? (entry :: entries) name = (lastNamed? entries name).or
      (if Text.upper entry.1.outerText = name then some entry else none) := by
  rw [lastNamed?, List.reverse_cons, List.find?_append, ← lastNamed?]
  by_cases here : Text.upper entry.1.outerText = name <;> simp [here]

section Host

variable [Host]

/-- The registers that entries give values to: under each name, once, stands the integer of the last
entry with that name. -/
structure Names (entries : List (Datum × Datum)) (registers : List (String × Int)) : Prop where
  distinct : (registers.map Prod.fst).Nodup
  mem_iff : ∀ name n, (name, n) ∈ registers ↔
    ∃ entry, lastNamed? entries name = some entry ∧ integer entry.2 = .ok n

def addEntry (rs : List (String × Int)) (entry : Datum × Datum) :
    Except Error (List (String × Int)) := do
  let name ← registerName entry.1
  let n ← integer entry.2
  return putRegister name n rs

/-- Registers are read by adding their entries one after the other. -/
theorem registerValues_eq (entries : List (Datum × Datum)) :
    registerValues entries = entries.foldlM addEntry [] := rfl

variable {rs rs' : List (String × Int)}

/-- An entry can be added exactly if its key can be shown and its value stands for an integer. -/
theorem addEntry_eq_ok_iff {entry : Datum × Datum} :
    addEntry rs entry = .ok rs' ↔ entry.1.obstacle? = none ∧
      ∃ n, integer entry.2 = .ok n ∧ rs' = putRegister (Text.upper entry.1.outerText) n rs := by
  simp only [addEntry, bind_eq_ok_iff, registerName, shownText]
  cases entry.1.obstacle? with
  | none => simp [Except.map, pure, Except.pure, eq_comm]
  | some obstacle => simp [Except.map]

/-- Entries can be added exactly if each of them can be. -/
theorem exists_foldlM_addEntry_iff :
    (∃ rs', entries.foldlM addEntry rs = .ok rs') ↔
      ∀ entry ∈ entries, entry.1.obstacle? = none ∧ ∃ n, integer entry.2 = .ok n := by
  induction entries generalizing rs with
  | nil => simp [pure, Except.pure]
  | cons entry entries ih =>
      simp only [List.foldlM_cons, bind_eq_ok_iff, addEntry_eq_ok_iff, List.forall_mem_cons]
      constructor
      · rintro ⟨rs', next, ⟨shown, n, value, _⟩, later⟩
        exact ⟨⟨shown, n, value⟩, ih.mp ⟨rs', later⟩⟩
      · rintro ⟨⟨shown, n, value⟩, rest⟩
        obtain ⟨rs', later⟩ := ih.mpr rest
        exact ⟨rs', _, ⟨shown, n, value, rfl⟩, later⟩

theorem nodup_foldlM_addEntry (h : entries.foldlM addEntry rs = .ok rs')
    (distinct : (rs.map Prod.fst).Nodup) : (rs'.map Prod.fst).Nodup := by
  induction entries generalizing rs with
  | nil =>
      cases h
      exact distinct
  | cons entry entries ih =>
      obtain ⟨next, first, later⟩ := bind_eq_ok_iff.mp h
      obtain ⟨_, n, _, rfl⟩ := addEntry_eq_ok_iff.mp first
      exact ih later (nodup_putRegister distinct _ n)

/-- Under a name stands the integer of the last entry with that name, and what stood there before if
there is no such entry. -/
theorem lookup_foldlM_addEntry (h : entries.foldlM addEntry rs = .ok rs') (name : String) :
    rs'.lookup name = match lastNamed? entries name with
      | some entry => (integer entry.2).toOption
      | none => rs.lookup name := by
  induction entries generalizing rs with
  | nil =>
      cases h
      rfl
  | cons entry entries ih =>
      obtain ⟨next, first, later⟩ := bind_eq_ok_iff.mp h
      obtain ⟨_, n, value, rfl⟩ := addEntry_eq_ok_iff.mp first
      -- A later entry with the name decides; the first one counts only where there is none.
      rw [ih later, lastNamed?_cons]
      cases lastNamed? entries name with
      | some last => rfl
      | none =>
          rw [lookup_putRegister]
          by_cases here : Text.upper entry.1.outerText = name
          · simp [here, value, Except.toOption]
          · simp [here, Ne.symm here]

theorem exists_registerValues_iff :
    (∃ rs, registerValues entries = .ok rs) ↔
      ∀ entry ∈ entries, entry.1.obstacle? = none ∧ ∃ n, integer entry.2 = .ok n := by
  rw [registerValues_eq]
  exact exists_foldlM_addEntry_iff

theorem names_of_registerValues (h : registerValues entries = .ok rs) : Names entries rs := by
  rw [registerValues_eq] at h
  have distinct := nodup_foldlM_addEntry h List.nodup_nil
  refine ⟨distinct, fun name n => ?_⟩
  rw [← lookup_eq_some_iff_mem distinct, lookup_foldlM_addEntry h]
  cases lastNamed? entries name with
  | none => simp
  | some entry => cases value : integer entry.2 <;> simp [value, Except.toOption]

/-! ### Reading -/

/-- A configuration holds what the settings stand for. -/
structure HasSettings (entries : List (Datum × Datum)) (s : Sections) (config : Config) : Prop where
  memorySize : HasSetting s.memory "size" 0x1000 config.memorySize
  programStart : HasSetting s.memory "program_start" 0x200 config.programStart
  fontAddress : HasSetting s.memory "font_address" 0x50 config.fontAddress
  displayWidth : HasSetting s.display "width" 64 config.displayWidth
  displayHeight : HasSetting s.display "height" 32 config.displayHeight
  cyclesPerTick : HasSetting s.timing "cycles_per_tick" 10 config.cyclesPerTick
  seed : HasOptional entries "random_seed" config.seed?
  pc : HasOptional s.initial "pc" config.pc?

/-- A configuration is the one that entries describe: besides the settings its registers have the
values of the last entries under their names. -/
structure Describes (entries : List (Datum × Datum)) (s : Sections) (config : Config) : Prop
    extends HasSettings entries s config where
  registers : Names s.registers config.registers

/-- What it takes for the settings to be read: each stands for an integer, the memory has cells with
the program start among them, and the timers tick. -/
structure Acceptable (entries : List (Datum × Datum)) (s : Sections) : Prop where
  memory : ∃ size start, HasSetting s.memory "size" 0x1000 size ∧
    HasSetting s.memory "program_start" 0x200 start ∧ 0 < size ∧ 0 ≤ start ∧ start < size
  fontAddress : ∃ n, HasSetting s.memory "font_address" 0x50 n
  displayWidth : ∃ n, HasSetting s.display "width" 64 n
  displayHeight : ∃ n, HasSetting s.display "height" 32 n
  cyclesPerTick : ∃ n, HasSetting s.timing "cycles_per_tick" 10 n ∧ 0 < n
  seed : ∃ n?, HasOptional entries "random_seed" n?
  pc : ∃ n?, HasOptional s.initial "pc" n?
  registers : ∀ entry ∈ s.registers, ∃ n, integer entry.2 = .ok n

/-- Nothing keeps the keys from being shown that a warning shows or that name registers. -/
structure Showable (entries : List (Datum × Datum)) (s : Sections) : Prop where
  unknown : ∀ key ∈ unknownKeys entries, key.obstacle? = none
  registers : ∀ entry ∈ s.registers, entry.1.obstacle? = none

theorem exists_mapM_shownText_iff {keys : List Datum} :
    (∃ texts, keys.mapM shownText = .ok texts) ↔ ∀ key ∈ keys, key.obstacle? = none := by
  induction keys with
  | nil => simp [pure, Except.pure]
  | cons key keys ih =>
      simp only [List.mapM_cons, bind_eq_ok_iff, shownText_eq_ok_iff, List.forall_mem_cons, ← ih]
      constructor
      · rintro ⟨texts, text, ⟨shown, _⟩, rest, shownRest, _⟩
        exact ⟨shown, rest, shownRest⟩
      · rintro ⟨shown, rest, shownRest⟩
        exact ⟨_, _, ⟨shown, rfl⟩, rest, shownRest, rfl⟩

/-- What it takes for entries to be read as a configuration, part by part. -/
theorem ofEntries_eq_ok_iff :
    ofEntries entries = .ok config ↔ (∀ key ∈ unknownKeys entries, key.obstacle? = none) ∧
      config.Checked ∧ ∃ s : Sections, s.Of entries ∧ HasSettings entries s config ∧
        registerValues s.registers = .ok config.registers := by
  -- Each part that is read becomes a relation and each check a fact, in the order of the reader.
  simp only [ofEntries, bind_eq_ok_iff, guard_eq_ok_iff, sectionEntries_eq_ok_iff,
    setting_eq_ok_iff, optionalSetting_eq_ok_iff, ← exists_mapM_shownText_iff]
  constructor
  · rintro ⟨texts, shown, memory, hm, size, hs, start, hp, font, hf, _, inside, h⟩
    obtain ⟨display, hd, width, hw, height, hh, timing, ht, cycles, hc, ticks, h⟩ := h
    obtain ⟨initial, hi, pc, hpc, registers, hr, values, named, seed, hseed, h⟩ := h
    cases h
    obtain ⟨low, high⟩ := Decidable.not_not.mp inside
    exact ⟨⟨texts, shown⟩, ⟨low, high, Int.not_le.mp ticks⟩,
      ⟨memory, display, timing, initial, registers⟩, ⟨hm, hd, ht, hi, hr⟩, ⟨hs, hp, hf, hw, hh, hc, hseed, hpc⟩, named⟩
  · rintro ⟨⟨texts, shown⟩, checked, s, sections, settings, named⟩
    have positive := Int.lt_of_le_of_lt checked.start_nonneg checked.start_lt
    refine ⟨texts, shown, _, sections.memory, _, settings.memorySize, _, settings.programStart, _,
      settings.fontAddress, Int.not_le.mpr positive,
      not_not_intro ⟨checked.start_nonneg, checked.start_lt⟩, ?_⟩
    refine ⟨_, sections.display, _, settings.displayWidth, _, settings.displayHeight, _,
      sections.timing, _, settings.cyclesPerTick, Int.not_le.mpr checked.cycles_pos, ?_⟩
    exact ⟨_, sections.initial, _, settings.pc, _, sections.registers, _, named, _, settings.seed,
      rfl⟩

/-- Acceptable entries are read exactly if their keys can be shown where they have to be. -/
theorem exists_ofEntries_iff :
    (∃ config, ofEntries entries = .ok config) ↔
      ∃ s : Sections, s.Of entries ∧ Acceptable entries s ∧ Showable entries s := by
  -- What was read is acceptable part by part, and acceptable parts make up what is read.
  constructor
  · rintro ⟨config, read⟩
    obtain ⟨unknown, checked, s, sections, settings, named⟩ := ofEntries_eq_ok_iff.mp read
    have keys := exists_registerValues_iff.mp ⟨_, named⟩
    refine ⟨s, sections, ?_, ⟨unknown, fun entry mem => (keys entry mem).1⟩⟩
    have positive := Int.lt_of_le_of_lt checked.start_nonneg checked.start_lt
    exact {
      memory := ⟨_, _, settings.memorySize, settings.programStart, positive, checked.start_nonneg,
        checked.start_lt⟩
      fontAddress := ⟨_, settings.fontAddress⟩
      displayWidth := ⟨_, settings.displayWidth⟩
      displayHeight := ⟨_, settings.displayHeight⟩
      cyclesPerTick := ⟨_, settings.cyclesPerTick, checked.cycles_pos⟩
      seed := ⟨_, settings.seed⟩
      pc := ⟨_, settings.pc⟩
      registers := fun entry mem => (keys entry mem).2 }
  · rintro ⟨s, sections, acceptable, showable⟩
    obtain ⟨size, start, hs, hp, _, low, high⟩ := acceptable.memory
    obtain ⟨font, hf⟩ := acceptable.fontAddress
    obtain ⟨width, hw⟩ := acceptable.displayWidth
    obtain ⟨height, hh⟩ := acceptable.displayHeight
    obtain ⟨cycles, hc, ticks⟩ := acceptable.cyclesPerTick
    obtain ⟨seed, hseed⟩ := acceptable.seed
    obtain ⟨pc, hpc⟩ := acceptable.pc
    obtain ⟨registers, named⟩ := exists_registerValues_iff.mpr fun entry mem =>
      ⟨showable.registers entry mem, acceptable.registers entry mem⟩
    exact ⟨⟨size, start, font, width, height, cycles, seed, pc, registers⟩,
      ofEntries_eq_ok_iff.mpr ⟨showable.unknown, ⟨low, high, ticks⟩, s, sections,
        ⟨hs, hp, hf, hw, hh, hc, hseed, hpc⟩, named⟩⟩

/-- The configuration that is read is the one that the entries describe. -/
theorem describes_of_ofEntries (read : ofEntries entries = .ok config) (sections : s.Of entries) :
    Describes entries s config := by
  obtain ⟨_, _, s', sections', settings, named⟩ := ofEntries_eq_ok_iff.mp read
  obtain rfl := sections.unique sections'
  exact { settings with registers := names_of_registerValues named }

/-! ### Failures -/

/-- What goes wrong with the value of a setting concerns a value no deeper than the entries around
it. -/
theorem reported_value {d : Datum} (found : Datum.lookup name entries = some d) :
    Reported (Datum.depthOfEntries entries) (integer d) :=
  (reported_integer d).mono (Datum.depth_le_of_entry (Datum.mem_of_lookup found)).2

theorem reported_setting (entries : List (Datum × Datum)) (name : String) (value : Int) :
    Reported (Datum.depthOfEntries entries) (setting entries name value) := by
  unfold setting
  split
  · exact reported_value ‹_›
  · exact reported_ok _ value

theorem reported_optionalSetting (entries : List (Datum × Datum)) (name : String) :
    Reported (Datum.depthOfEntries entries) (optionalSetting entries name) := by
  unfold optionalSetting
  split
  · exact reported_ok _ none
  · exact reported_ok _ none
  · exact (reported_value ‹_›).bind fun n _ => reported_ok _ (some n)

/-- A section of a wrong type is a bad value, and nothing is shown of it but its type. -/
theorem reported_sectionEntries (depth : Nat) (entries : List (Datum × Datum)) (name : String) :
    Reported depth (sectionEntries entries name) := by
  intro e failed
  unfold sectionEntries at failed
  split at failed <;> cases failed
  exact .inl rfl

theorem reported_addEntry {entry : Datum × Datum} (rs : List (String × Int))
    (mem : entry ∈ entries) : Reported (Datum.depthOfEntries entries) (addEntry rs entry) := by
  obtain ⟨key, value⟩ := Datum.depth_le_of_entry mem
  refine Reported.bind ?_ fun name _ => ((reported_integer _).mono value).bind fun n _ =>
    reported_ok _ _
  exact ((reported_shownText _).mono key).bind fun text _ => reported_ok _ _

theorem reported_registerValues (entries : List (Datum × Datum)) :
    Reported (Datum.depthOfEntries entries) (registerValues entries) := by
  rw [registerValues_eq]
  exact Reported.foldlM (fun _ mem rs => reported_addEntry rs mem) []

theorem reported_shownKeys (entries : List (Datum × Datum)) :
    Reported (Datum.depthOfEntries entries) ((unknownKeys entries).mapM shownText) := by
  refine Reported.mapM fun key unknown => ?_
  obtain ⟨entry, mem, rfl⟩ := List.mem_map.mp (List.mem_filter.mp unknown).1
  exact (reported_shownText _).mono (Datum.depth_le_of_entry mem).1

/-- Each step of the reading reports what goes wrong. -/
theorem reported_ofEntries (entries : List (Datum × Datum)) :
    Reported (Datum.depthOfEntries entries) (ofEntries entries) := by
  -- What a section holds is not deeper than the entries at the top, and so is what its sections hold.
  have settings {name : String} {inner : List (Datum × Datum)}
      (read : sectionEntries entries name = .ok inner) (key : String) (value : Int) :
      Reported (Datum.depthOfEntries entries) (setting inner key value) :=
    (reported_setting inner key value).mono (depth_le_of_sectionEntries read)
  unfold ofEntries
  refine (reported_shownKeys entries).bind fun _ _ => ?_
  refine (reported_sectionEntries _ _ _).bind fun memory inMemory => ?_
  refine (settings inMemory _ _).bind fun size _ => ?_
  refine (settings inMemory _ _).bind fun start _ => ?_
  refine (settings inMemory _ _).bind fun font _ => ?_
  refine .guard rfl (.guard rfl ?_)
  refine (reported_sectionEntries _ _ _).bind fun display inDisplay => ?_
  refine (settings inDisplay _ _).bind fun width _ => ?_
  refine (settings inDisplay _ _).bind fun height _ => ?_
  refine (reported_sectionEntries _ _ _).bind fun timing inTiming => ?_
  refine (settings inTiming _ _).bind fun cycles _ => ?_
  refine .guard rfl ?_
  refine (reported_sectionEntries _ _ _).bind fun initial inInitial => ?_
  have below := depth_le_of_sectionEntries inInitial
  refine ((reported_optionalSetting _ _).mono below).bind fun pc _ => ?_
  refine (reported_sectionEntries _ _ _).bind fun named inNamed => ?_
  have below := Nat.le_trans (depth_le_of_sectionEntries inNamed) below
  refine ((reported_registerValues _).mono below).bind fun registers _ => ?_
  exact (reported_optionalSetting _ _).bind fun seed _ => reported_ok _ _

/-- Where reading data goes wrong, it is a bad value or too deep to be shown. -/
theorem reported_ofDatum (d : Datum) : Reported d.depth (ofDatum d).result := by
  cases d with
  | map entries => exact (reported_ofEntries entries).mono (Nat.le_succ _)
  | _ =>
      intro e failed
      cases failed
      exact .inl rfl

def unknownWarning (key : Datum) : String :=
  "Unknown configuration key '" ++ key.outerText ++ "' ignored"

/-- Every unknown key is warned of exactly if all of them can be shown. -/
theorem warnings_eq_iff : warningsOf entries = (unknownKeys entries).map unknownWarning ↔
    ∀ key ∈ unknownKeys entries, key.obstacle? = none := by
  have shown : (∀ key ∈ unknownKeys entries, key.obstacle? = none) ↔
      ∀ key ∈ unknownKeys entries, key.obstacle?.isNone := by simp
  rw [shown, ← List.takeWhile_eq_self_iff]
  constructor
  · intro warned
    have length := congrArg List.length warned
    rw [warningsOf, List.length_map, List.length_map] at length
    exact (List.takeWhile_prefix _).eq_of_length length
  · intro all
    rw [warningsOf, all]
    rfl

/-- Data is read as a configuration exactly if it is an acceptable mapping whose keys can be shown
where they have to be, and the configuration is the one that the data describes. What goes wrong is
a bad value, unless a value is too deep to be shown, which takes data that is deeper than what the
host can show. The warnings are one for each unknown key, in order, unless one of these keys cannot
be shown. -/
theorem acceptable_data_read_iff (d : Datum) :
    ((∃ config, (ofDatum d).result = .ok config) ↔ ∃ (entries : _) (s : Sections),
      d = .map entries ∧ s.Of entries ∧ Acceptable entries s ∧ Showable entries s) ∧
    (∀ config, (ofDatum d).result = .ok config → ∀ (entries : _) (s : Sections),
      d = .map entries → s.Of entries → Describes entries s config) ∧
    (∀ e, (ofDatum d).result = .error e →
      e.isBadValue ∨ e = .unshown .tooDeep ∧ Host.depth < d.depth) ∧
    (∀ entries, d = .map entries →
      ((ofDatum d).warnings = (unknownKeys entries).map unknownWarning ↔
        ∀ key ∈ unknownKeys entries, key.obstacle? = none)) := by
  refine ⟨⟨?_, ?_⟩, ?_, reported_ofDatum d, ?_⟩
  · rintro ⟨config, read⟩
    cases d with
    | map entries =>
        obtain ⟨s, accepted⟩ := exists_ofEntries_iff.mp ⟨config, read⟩
        exact ⟨entries, s, rfl, accepted⟩
    | _ => cases read
  · rintro ⟨entries, s, rfl, accepted⟩
    exact exists_ofEntries_iff.mpr ⟨s, accepted⟩
  · rintro config read entries s rfl sections
    exact describes_of_ofEntries read sections
  · rintro entries rfl
    exact warnings_eq_iff

end Host

/-- The sections of a mapping with two spellings of one register and a setting left open. -/
def mixedSections : Sections where
  memory := [(.text "size", .text "0x2000")]
  display := []
  timing := []
  initial := [(.text "pc", .null),
    (.text "registers", .map [(.text "va", .int 1), (.text "VA", .int 2)])]
  registers := [(.text "va", .int 1), (.text "VA", .int 2)]

/-- The entries of that mapping, with an unknown key among them. -/
def mixed : List (Datum × Datum) :=
  [(.text "memory", .map mixedSections.memory), (.text "cpu", .text "schip"),
    (.text "initial_state", .map mixedSections.initial)]

theorem acceptable_mixed : Acceptable mixed mixedSections where
  memory := ⟨_, _, .present rfl rfl, .absent rfl, by decide⟩
  fontAddress := ⟨_, .absent rfl⟩
  displayWidth := ⟨_, .absent rfl⟩
  displayHeight := ⟨_, .absent rfl⟩
  cyclesPerTick := ⟨_, .absent rfl, by decide⟩
  seed := ⟨_, .absent rfl⟩
  pc := ⟨_, .null rfl⟩
  registers := by simp [mixedSections, integer]

/-- The last spelling counts, and the unknown key is warned of. -/
theorem mixed_read : ∃ config, (ofDatum (.map mixed)).result = .ok config ∧
    config.memorySize = 0x2000 ∧ config.programStart = 0x200 ∧ config.pc? = none ∧
    (∀ n, ("VA", n) ∈ config.registers ↔ n = 2) ∧
    (ofDatum (.map mixed)).warnings = ["Unknown configuration key 'cpu' ignored"] := by
  have sections : mixedSections.Of mixed :=
    ⟨.map rfl, .absent rfl, .absent rfl, .map rfl, .map rfl⟩
  have showable : Showable mixed mixedSections := ⟨by decide, by decide⟩
  have last : lastNamed? mixedSections.registers "VA" = some (.text "VA", .int 2) := rfl
  obtain ⟨accepted, described, _, warned⟩ := acceptable_data_read_iff (.map mixed)
  obtain ⟨config, read⟩ := accepted.mpr
    ⟨mixed, mixedSections, rfl, sections, acceptable_mixed, showable⟩
  have describes := described config read mixed mixedSections rfl sections
  refine ⟨config, read, ?_, ?_, ?_, fun n => ?_, (warned mixed rfl).mpr showable.unknown⟩
  · exact (Except.ok.inj (setting_eq_ok_iff.mpr describes.memorySize)).symm
  · exact (Except.ok.inj (setting_eq_ok_iff.mpr describes.programStart)).symm
  · exact (Except.ok.inj (optionalSetting_eq_ok_iff.mpr describes.pc)).symm
  · simp [describes.registers.mem_iff, last, integer, eq_comm]

/-- The least integer that is too long to be written, as a key. -/
def longKey : Datum := .int (Nat.pow 10 Numeral.maxDecimalDigits : Nat)

/-- An integer is shown on one level, so only its length can keep it from being shown. -/
theorem obstacle?_int [Host] (some_level : Host.depth ≠ 0) (n : Int) :
    (Datum.int n).obstacle? = if Numeral.isWritable n then none else some .tooLong := by
  unfold Datum.obstacle? Datum.innerObstacle?
  exact if_neg some_level

theorem obstacle?_longKey : longKey.obstacle? = some .tooLong := by
  have unwritable : Numeral.isWritable (Nat.pow 10 Numeral.maxDecimalDigits : Nat) = false := by
    rw [Numeral.isWritable, Int.natAbs_natCast, decide_eq_false_iff_not]
    exact Nat.lt_irrefl _
  rw [longKey, obstacle?_int (by decide), unwritable]
  rfl

/-- A mapping is refused for an unknown key alone, and without a warning. -/
theorem long_unknown_key_refused :
    (∃ s : Sections, s.Of [(longKey, .null)] ∧ Acceptable [(longKey, .null)] s) ∧
      unknownKeys [(longKey, .null)] = [longKey] ∧
      (ofDatum (.map [(longKey, .null)])).result = .error (.unshown .tooLong) ∧
      (ofDatum (.map [(longKey, .null)])).warnings = [] := by
  have unknown : unknownKeys [(longKey, .null)] = [longKey] := rfl
  refine ⟨⟨⟨[], [], [], [], []⟩, ?_, ?_⟩, unknown, ?_, ?_⟩
  · exact ⟨.absent rfl, .absent rfl, .absent rfl, .absent rfl, .absent rfl⟩
  · exact {
      memory := ⟨_, _, .absent rfl, .absent rfl, by decide⟩
      fontAddress := ⟨_, .absent rfl⟩
      displayWidth := ⟨_, .absent rfl⟩
      displayHeight := ⟨_, .absent rfl⟩
      cyclesPerTick := ⟨_, .absent rfl, by decide⟩
      seed := ⟨_, .absent rfl⟩
      pc := ⟨_, .absent rfl⟩
      registers := fun entry mem => by cases mem }
  · simp [ofDatum, ofEntries, unknown, shownText, obstacle?_longKey, bind, Except.bind]
  · simp [ofDatum, warningsOf, unknown, obstacle?_longKey]

end Chip8.Config
