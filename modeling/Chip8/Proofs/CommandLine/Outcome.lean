import Chip8.CommandLine
import Chip8.Proofs.CommandLine.Prepare
import Chip8.Proofs.Listing
import Chip8.Proofs.Machine.Run

/-!
What a run of the program does.

A run that is not prepared reports that and ends with code 2. A prepared one `Performs` what its
options say: it lists the image, or executes instructions up to a count or the first that fails
(`performs_run`). Two things escape a run without a report (`run_outcome`): a value of the
configuration that is too deep to be shown, and a count that is missing when instructions are to be
executed. The latter takes a host that drops what stands in place of the count (`counted_of_read`).
-/

namespace Chip8.CommandLine

open Machine

def traceLines (o : Options) (snapshots : List Snapshot) : List String :=
  if o.quiet then [] else snapshots.map Snapshot.text

def registerLines (o : Options) (c : Cpu) : List String :=
  if o.dumpRegisters then [registerLine c] else []

/-- What is done with an image in memory, and how that ends. -/
inductive Performs (o : Options) (warnings : List String) (l : Loaded) : Outcome → Prop where
  /-- The image is listed, two bytes in a line. -/
  | listed {lines : List Listing.Line} : o.disassemble = true →
      Listing.lines? l.machine.bus l.start l.length = .ok lines →
      lines.length = (l.length + 1) / 2 →
        Performs o warnings l (.report ⟨0, unlines (lines.map listingLine), "", warnings⟩)
  /-- As many instructions were executed as the count says. -/
  | completed {count : Int} {snapshots : List Snapshot} {last : Machine} :
      o.disassemble = false → o.steps? = some count →
      Stepped l.period l.machine snapshots last → snapshots.length = count.toNat →
        Performs o warnings l
          (.report ⟨0, unlines (traceLines o snapshots ++ registerLines o last.cpu), "",
            warnings ++ last.reports.map UnknownWord.message⟩)
  /-- Before there were that many, one failed. -/
  | halted {count : Int} {snapshots : List Snapshot} {last final : Machine} {e : Fault} :
      o.disassemble = false → o.steps? = some count →
      Stepped l.period l.machine snapshots last → snapshots.length < count.toNat →
      step last = (.error e, final) →
        Performs o warnings l
          (.report ⟨1, unlines (traceLines o snapshots ++ registerLines o final.cpu),
            unlines ["CPU halted: " ++ e.message],
            warnings ++ final.reports.map UnknownWord.message⟩)
  /-- There is no count. -/
  | countless : o.disassemble = false → o.steps? = none →
      Performs o warnings l (.aborted "" warnings .noCount)

/-- Only a run without a count ends without a report. -/
theorem Performs.report_iff {o : Options} {warnings : List String} {l : Loaded} {outcome : Outcome}
    (h : Performs o warnings l outcome) :
    (∃ r, outcome = .report r) ↔ ¬ (o.disassemble = false ∧ o.steps? = none) := by
  cases h with
  | listed wanted _ _ =>
      exact iff_of_true ⟨_, rfl⟩ fun ⟨unwanted, _⟩ => by simp [wanted] at unwanted
  | completed _ counted _ _ | halted _ counted _ _ _ =>
      exact iff_of_true ⟨_, rfl⟩ fun ⟨_, uncounted⟩ => by simp [counted] at uncounted
  | countless unwanted uncounted => exact iff_of_false nofun fun h => h ⟨unwanted, uncounted⟩

/-- What is done with an image in memory never ends with the code of a run that is not prepared. -/
theorem Performs.exitCode_lt {o : Options} {warnings : List String} {l : Loaded} {r : Report}
    (h : Performs o warnings l (.report r)) : r.exitCode < 2 := by
  cases h with
  | listed _ _ _ | completed _ _ _ _ => exact Nat.zero_lt_two
  | halted _ _ _ _ _ => exact Nat.one_lt_two

variable {o : Options} {l : Loaded} {warnings : List String}

/-- Instructions are executed until the count is reached or one fails. -/
theorem performs_execute (ticks : 0 < l.period) (start : l.machine.WellFormed)
    (unwanted : o.disassemble = false) {count : Int} (counted : o.steps? = some count) :
    Performs o warnings l (execute warnings o count l) := by
  obtain ⟨snapshots, last, stepped, ended⟩ := run_stepped ticks l.machine count.toNat
  rcases ended with ⟨all, goes⟩ | ⟨fewer, e, final, failing, goes⟩
  · have outcome : execute warnings o count l =
        .report ⟨0, unlines (traceLines o snapshots ++ registerLines o last.cpu), "",
          warnings ++ last.reports.map UnknownWord.message⟩ := by
      simp only [execute, goes, traceLines, registerLines]
    rw [outcome]
    exact .completed unwanted counted stepped all
  · have halts := (stepped.wellFormed start).halts_of_step failing
    have outcome : execute warnings o count l =
        .report ⟨1, unlines (traceLines o snapshots ++ registerLines o final.cpu),
          unlines ["CPU halted: " ++ e.message],
          warnings ++ final.reports.map UnknownWord.message⟩ := by
      simp only [execute, goes, halts, if_true, traceLines, registerLines]
    rw [outcome]
    exact .halted unwanted counted stepped fewer failing

/-! ### The count -/

theorem steps?_place (p : Pending) (text : String) :
    (p.place text).options.steps? = p.options.steps? := by
  unfold Pending.place
  split <;> rfl

theorem steps?_raise (p : Pending) (s : Switch) :
    (p.raise s).options.steps? = p.options.steps? := by
  cases s <;> rfl

/-- The count of what is run is the one that was read. -/
theorem steps?_of_finish {p : Pending} (accepted : p.finish = .run o) :
    o.steps? = p.options.steps? := by
  unfold Pending.finish at accepted
  split at accepted
  · split at accepted <;> cases accepted
    rfl
  · cases accepted

section Host

variable [Host]

/-- Where no divider is dropped, an option with a value does not lose the count. -/
theorem counted_of_assign? (keeps : Host.dropsAttached = false) {p p' : Pending} {value : String}
    {s : Switch} (counted : p.options.steps? ≠ none) (assigned : p.assign? value s = some p') :
    p'.options.steps? ≠ none := by
  have kept : Pending.isDropped value = false := by simp [Pending.isDropped, keeps]
  cases s with
  | config =>
      cases assigned
      exact counted
  | steps =>
      simp only [Pending.assign?, kept, Bool.false_eq_true, if_false, Option.map_eq_some_iff]
        at assigned
      obtain ⟨n, _, rfl⟩ := assigned
      exact Option.some_ne_none n
  | help | quiet | dumpRegisters | disassemble => cases assigned

theorem counted_of_read (keeps : Host.dropsAttached = false) {p : Pending} {read : List Argument}
    (counted : p.options.steps? ≠ none) (accepted : p.read read = .run o) : o.steps? ≠ none := by
  -- Only an option with a value touches the count.
  fun_induction Pending.read p read with
  | case1 p =>
      rw [steps?_of_finish accepted]
      exact counted
  | case2 p text rest ih | case3 p text rest _ ih =>
      rw [← steps?_place p text] at counted
      exact ih counted accepted
  | case4 p rest ih | case5 p rest ih => exact ih counted accepted
  | case6 p s value rest p' assigned ih | case9 p s _ _ value rest p' assigned ih =>
      exact ih (counted_of_assign? keeps counted assigned) accepted
  | case12 p s rest _ _ ih =>
      rw [← steps?_raise p s] at counted
      exact ih counted accepted
  -- The others are refused, or ask for help.
  | case7 | case8 | case10 | case11 => cases accepted

/-- A host that drops no divider finds a count in all arguments that it accepts. -/
theorem counted_of_ofArguments (keeps : Host.dropsAttached = false) {args : List String}
    (accepted : Request.ofArguments args = .run o) : o.steps? ≠ none := by
  unfold Request.ofArguments at accepted
  split at accepted
  · exact counted_of_read keeps (Option.some_ne_none 1000) accepted
  · cases accepted

/-! ### Runs -/

variable [Config.DocumentReader]
variable {files : Files} {seed : Int} {config : Config} {image : List UInt8} {built : Machine}

/-- The whole image can be listed. -/
theorem exists_listing (h : Prepared files seed o config image built) :
    ∃ lines, Listing.lines? (loaded config image built).machine.bus config.programStart
      image.length = .ok lines ∧ lines.length = (image.length + 1) / 2 := by
  have regions : (loaded config image built).machine.bus.regions = built.bus.regions :=
    congrArg Prod.fst (shape_load image config.programStart built.bus)
  have mapped (k : Nat) (inside : k < image.length) :
      (loaded config image built).machine.bus.Maps (config.programStart + k) :=
    (Bus.maps_congr regions _).mpr (h.maps k inside)
  exact Listing.exists_lines? h.wellFormed.backed mapped

/-- A prepared run does what its options say. -/
theorem performs_run (h : Prepared files seed o config image built) :
    Performs o (readConfig files o.config?).1 (loaded config image built) (run files seed o) := by
  rw [run_of_prepared h, start]
  cases wanted : o.disassemble with
  | true =>
      obtain ⟨lines, listed, length⟩ := exists_listing h
      have outcome : list (readConfig files o.config?).1 (loaded config image built) =
          .report ⟨0, unlines (lines.map listingLine), "", (readConfig files o.config?).1⟩ := by
        simp only [list, loaded] at listed ⊢
        rw [listed]
      rw [if_pos rfl, outcome]
      exact .listed wanted listed length
  | false =>
      cases counted : o.steps? with
      | none => exact .countless wanted counted
      | some count =>
          have cycles := (checked_of_readConfig h.read).cycles_pos
          have ticks : 0 < (loaded config image built).period := by
            simp only [loaded]
            omega
          exact performs_execute ticks h.wellFormed wanted counted

/-- What every run does, if the document of its configuration can be parsed and there is room for
what it asks for. It ends with code 2 and without output exactly if it is not prepared, and
otherwise it does what its options say with the image in memory. An error escapes it exactly if the
configuration is refused for a value that is too deep to be shown, or if instructions are to be
executed and there is no count. The former takes data deeper than what the host can show, and the
latter does not happen where the host drops no divider. -/
theorem run_outcome
    (parses : ∀ cause, (readConfig files o.config?).2 = .error (.config (.document cause)) →
      ∃ message, cause = .badValue message)
    (room : ∀ config, (readConfig files o.config?).2 = .ok config → config.HasRoom) :
    ((∃ r, run files seed o = .report r) ↔
      ¬ (TooDeep files o.config? ∨
        (∃ config image built, Prepared files seed o config image built) ∧
          o.disassemble = false ∧ o.steps? = none)) ∧
    ((∃ r, run files seed o = .report r ∧ r.exitCode = 2 ∧ r.output = "") ↔
      ¬ TooDeep files o.config? ∧
        ¬ ∃ config image built, Prepared files seed o config image built) ∧
    (∀ config image built, Prepared files seed o config image built →
      Performs o (readConfig files o.config?).1 (loaded config image built)
        (run files seed o)) ∧
    (TooDeep files o.config? →
      run files seed o =
        .aborted "" (readConfig files o.config?).1 (.config (.unshown .tooDeep)) ∧
      ∃ name bytes d, o.config? = some name ∧ readFile files name = .ok bytes ∧
        Config.DocumentReader.read bytes = .ok d ∧ Host.depth < d.depth) ∧
    (Host.dropsAttached = false → ∀ args, Request.ofArguments args = .run o → o.steps? ≠ none) := by
  refine ⟨?_, ?_, fun config image built => performs_run,
    fun deep => ⟨run_of_tooDeep deep, deep.lt_depth⟩, fun keeps _ => counted_of_ofArguments keeps⟩
  -- Too deep a value, a run that is prepared, and any other: three ways that exclude each other.
  · by_cases deep : TooDeep files o.config?
    · rw [run_of_tooDeep deep]
      exact iff_of_false nofun fun h => h (.inl deep)
    · by_cases prepared : ∃ config image built, Prepared files seed o config image built
      · obtain ⟨config, image, built, h⟩ := prepared
        refine (performs_run h).report_iff.trans (not_congr ?_)
        rw [or_iff_right deep]
        exact (and_iff_right ⟨config, image, built, h⟩).symm
      · obtain ⟨e, reported⟩ := run_of_unprepared parses room deep fun config image built h =>
          prepared ⟨config, image, built, h⟩
        exact iff_of_true ⟨_, reported⟩ fun h => h.elim deep fun h => prepared h.1
  · constructor
    · rintro ⟨r, reported, code, _⟩
      refine ⟨fun deep => ?_, fun ⟨config, image, built, h⟩ => ?_⟩
      · rw [run_of_tooDeep deep] at reported
        cases reported
      · have performed := performs_run h
        rw [reported] at performed
        have below := performed.exitCode_lt
        omega
    · rintro ⟨shallow, unprepared⟩
      obtain ⟨e, reported⟩ := run_of_unprepared parses room shallow fun config image built h =>
        unprepared ⟨config, image, built, h⟩
      exact ⟨_, reported, rfl, rfl⟩

end Host

/-- Files of the same bytes under every name. -/
def filesOf (bytes : List UInt8) : Files := fun _ => .ok bytes

/-- A negative count executes nothing: the run succeeds and prints nothing. -/
theorem negative_count_prints_nothing : ∃ r,
    run (filesOf [0x00, 0xE0]) 0 ⟨"rom.ch8", none, some (-1), false, false, false⟩ = .report r ∧
      r.exitCode = 0 ∧ r.output = "" := by
  have content : readFile (filesOf [0x00, 0xE0]) "rom.ch8" = .ok [0x00, 0xE0] := rfl
  have parses : ∀ cause, (readConfig (filesOf [0x00, 0xE0]) none).2 =
      .error (.config (.document cause)) → ∃ message, cause = .badValue message := by
    rintro cause ⟨⟩
  have room : ∀ config, (readConfig (filesOf [0x00, 0xE0]) none).2 = .ok config →
      config.HasRoom := by
    rintro config ⟨⟩
    decide
  obtain ⟨built, prepared⟩ := exists_prepared_default (by decide) 0 rfl content (by decide)
    (by decide) (o := ⟨"rom.ch8", none, some (-1), false, false, false⟩)
  have performed := (run_outcome parses room).2.2.1 _ _ _ prepared
  generalize run _ _ _ = outcome at performed
  cases performed with
  | listed wanted _ _ => cases wanted
  | completed _ counted _ length =>
      cases counted
      rw [List.eq_nil_of_length_eq_zero length]
      exact ⟨_, rfl, rfl, rfl⟩
  | halted _ counted _ length _ =>
      cases counted
      exact absurd length (Nat.not_lt_zero _)
  | countless _ uncounted => cases uncounted

/-! ### A value that is too deep -/

/-- Lists in each other as the size of the memory, beside another value that means nothing there. -/
def nestedSize (beside : Datum) (inner : Nat) : Datum :=
  .map [(.text "memory", .map [(.text "lists", beside), (.text "size", .nested inner)])]

/-- A size of the memory that is no integer has to be shown, and is too deep for that. -/
theorem ofRoot_nestedSize [Host] {beside : Datum} {inner : Nat} (deep : Host.depth ≤ inner) :
    Config.ofRoot (nestedSize beside inner) = ⟨[], .error (.unshown .tooDeep)⟩ := by
  have obstacle := Datum.innerObstacle?_nested deep
  obtain ⟨items, list⟩ : ∃ items, Datum.nested inner = .list items := by
    cases inner <;> exact ⟨_, rfl⟩
  rw [nestedSize, list]
  rw [list] at obstacle
  have refused : Config.integer (.list items) = .error (.unshown .tooDeep) := by
    simp only [Config.integer, Config.shownText, Datum.obstacle?, obstacle]
    rfl
  simp [Config.ofRoot, Datum.isBlank, Config.ofDatum, Config.warningsOf, Config.ofEntries,
    Config.unknownKeys, Config.isKnownKey, Config.knownKeys, Config.sectionEntries, Config.setting,
    Datum.lookup, refused, bind, Except.bind, pure, Except.pure]

/-- A document of such data aborts every run that is given it. -/
theorem run_of_nestedSize [Host] [Config.DocumentReader] {files : Files} {seed : Int} {o : Options}
    {name : String} {bytes : List UInt8} {beside : Datum} {inner : Nat}
    (named : o.config? = some name) (nonempty : name ≠ "")
    (content : readFile files name = .ok bytes)
    (document : Config.DocumentReader.read bytes = .ok (nestedSize beside inner))
    (deep : Host.depth ≤ inner) :
    run files seed o = .aborted "" [] (.config (.unshown .tooDeep)) := by
  have read : readConfig files o.config? = ([], .error (.config (.unshown .tooDeep))) := by
    rw [named]
    unfold readConfig
    split
    · contradiction
    · rename_i empty
      exact absurd (Option.some.inj empty) nonempty
    · rename_i same
      cases same
      simp only [content, Config.ofBytes, document, ofRoot_nestedSize deep]
      rfl
  rw [run_of_tooDeep (congrArg Prod.snd read), read]

section Nested

variable (document image : List UInt8) (beside : Datum) (inner : Nat)

/-- A reader for which a document stands for lists in each other, and that reads others as usual. -/
@[reducible] def nestedReader : Config.DocumentReader where
  read bytes :=
    if bytes = document then .ok (nestedSize beside inner) else Yaml.readBytes bytes

/-- A document as configuration next to an image. -/
def nestedFiles : Files := fun name => .ok (if name = "system.yaml" then document else image)

theorem run_nestedFiles (deep : Host.usual.depth ≤ inner) :
    @run .usual (nestedReader document beside inner) (nestedFiles document image) 0
      ⟨"rom.ch8", some "system.yaml", some 1000, false, false, false⟩ =
        .aborted "" [] (.config (.unshown .tooDeep)) := by
  let := nestedReader document beside inner
  have content : readFile (nestedFiles document image) "system.yaml" = .ok document := rfl
  have read : Config.DocumentReader.read document = .ok (nestedSize beside inner) := if_pos rfl
  exact run_of_nestedSize rfl (by decide) content read deep

end Nested

/-- A document of lists in each other. No value is written deeper than 201 lists, since each list
holds the one before it under its name. -/
def nestedDocument : String :=
  let line (k : Nat) :=
    "    - &d" ++ toString k ++ " " ++ String.ofList (List.replicate 200 '[') ++
      (if k = 0 then "" else "*d" ++ toString (k - 1) ++ " ") ++
      String.ofList (List.replicate 200 ']') ++ "\n"
  "memory:\n  lists:\n" ++ String.join ((List.range 54).map line) ++ "  size: *d53\n"

/-- Lists that lie too deep in each other abort a run where the size of the memory should be. -/
theorem nested_size_aborts_run :
    let document := nestedDocument.toUTF8.toList
    let beside := .list ((List.range 54).map fun k => .nested (200 * k + 199))
    @run .usual (nestedReader document beside 10799)
      (nestedFiles document [0x60, 0x2A, 0x70, 0x01, 0x12, 0x02]) 0
      ⟨"rom.ch8", some "system.yaml", some 1000, false, false, false⟩ =
        .aborted "" [] (.config (.unshown .tooDeep)) :=
  run_nestedFiles _ _ _ _ (by decide)

end Chip8.CommandLine
