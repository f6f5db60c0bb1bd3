import Chip8.CommandLine.Run
import Chip8.Proofs.Config.Acceptance
import Chip8.Proofs.Config.Build

/-!
Preparing: what has to go well before anything is listed or executed.

A run is *prepared* when the configuration can be read and built, and the image can be read, is not
empty and fits into memory. A prepared run goes on with the image loaded (`run_of_prepared`). Any
other reports an error (`run_of_unprepared`), as long as the document of the configuration can be
parsed and there is room for what it asks for, unless a value in the document is too deep to be
shown (`TooDeep`), which aborts the run (`run_of_tooDeep`).
-/

namespace Chip8.CommandLine

variable {files : Files} {seed : Int} {o : Options} {config : Config} {e : Error}

theorem mapError_ok {ε ε' α : Type} (f : ε → ε') (a : α) :
    (Except.ok a : Except ε α).mapError f = .ok a := rfl

theorem mapError_eq_ok_iff {ε ε' α : Type} {f : ε → ε'} {x : Except ε α} {a : α} :
    x.mapError f = .ok a ↔ x = .ok a := by
  cases x <;> simp [Except.mapError]

/-- An error is changed to another only where there was one. -/
theorem mapError_eq_error_iff {ε ε' α : Type} {f : ε → ε'} {x : Except ε α} {e' : ε'} :
    x.mapError f = .error e' ↔ ∃ e, x = .error e ∧ f e = e' := by
  cases x <;> simp [Except.mapError]

/-- A file that cannot be read is reported, for whatever reason. -/
theorem isReported_of_readFile {name : String} (h : readFile files name = .error e) :
    e.isReported = true := by
  unfold readFile at h
  split at h
  · cases h
    rfl
  · obtain ⟨cause, _, rfl⟩ := mapError_eq_error_iff.mp h
    rfl

section Host

variable [Host]

/-! ### The configuration -/

section Reader

variable [Config.DocumentReader]

/-- Without a name the configuration is the one in which nothing is set. Otherwise its file is read,
and then its document. -/
theorem readConfig_cases (files : Files) (name? : Option String) :
    readConfig files name? = ([], .ok Config.default) ∨
      (∃ e, e.isReported ∧ readConfig files name? = ([], .error e)) ∨
      ∃ name bytes, name? = some name ∧ readFile files name = .ok bytes ∧
        readConfig files name? = ((Config.ofBytes bytes).warnings,
          (Config.ofBytes bytes).result.mapError .config) := by
  unfold readConfig
  split
  · exact .inl rfl
  · exact .inl rfl
  · rename_i name _
    cases found : readFile files name with
    | error e => exact .inr (.inl ⟨e, isReported_of_readFile found, rfl⟩)
    | ok bytes => exact .inr (.inr ⟨name, bytes, rfl, found, rfl⟩)

/-- A document that can be read is read as its data is. -/
theorem result_of_ofBytes (bytes : List UInt8) :
    (∃ d, Config.DocumentReader.read bytes = .ok d ∧
      (Config.ofBytes bytes).result = (Config.ofRoot d).result) ∨
      ∃ cause, (Config.ofBytes bytes).result = .error (.document cause) := by
  unfold Config.ofBytes
  cases Config.DocumentReader.read bytes with
  | ok d => exact .inl ⟨d, rfl, rfl⟩
  | error cause => exact .inr ⟨cause, rfl⟩

/-- A configuration that a run is given has passed the checks. -/
theorem checked_of_readConfig {name? : Option String}
    (h : (readConfig files name?).2 = .ok config) : config.Checked := by
  rcases readConfig_cases files name? with default | ⟨e, _, refused⟩ | ⟨name, bytes, _, _, read⟩
  · rw [default] at h
    cases h
    exact Config.checked_default
  · rw [refused] at h
    cases h
  · rw [read] at h
    have result := mapError_eq_ok_iff.mp h
    rcases result_of_ofBytes bytes with ⟨d, _, same⟩ | ⟨cause, noDocument⟩
    · exact Config.checked_of_ofDatum (same.symm.trans result)
    · rw [noDocument] at result
      cases result

/-- What keeps a configuration from being read is reported, or it is the cause for which its document
is refused. -/
theorem readConfig_error {name? : Option String} (h : (readConfig files name?).2 = .error e) :
    e.isReported ∨ ∃ name bytes cause, name? = some name ∧ readFile files name = .ok bytes ∧
      (Config.ofBytes bytes).result = .error cause ∧ .config cause = e := by
  rcases readConfig_cases files name? with default | ⟨e', reported, refused⟩ |
    ⟨name, bytes, named, found, read⟩
  · rw [default] at h
    cases h
  · rw [refused] at h
    cases h
    exact .inl reported
  · rw [read] at h
    obtain ⟨cause, result, same⟩ := mapError_eq_error_iff.mp h
    exact .inr ⟨name, bytes, cause, named, found, result, same⟩

/-- The configuration is refused for a value that is too deep to be shown. -/
def TooDeep (files : Files) (name? : Option String) : Prop :=
  (readConfig files name?).2 = .error (.config (.unshown .tooDeep))

/-- That takes a document whose data is deeper than what the host can show. -/
theorem TooDeep.lt_depth {name? : Option String} (h : TooDeep files name?) :
    ∃ name bytes d, name? = some name ∧ readFile files name = .ok bytes ∧
      Config.DocumentReader.read bytes = .ok d ∧ Host.depth < d.depth := by
  rcases readConfig_error h with reported | ⟨name, bytes, _, named, found, result, same⟩
  · cases reported
  · cases same
    rcases result_of_ofBytes bytes with ⟨d, document, root⟩ | ⟨cause, noDocument⟩
    · refine ⟨name, bytes, d, named, found, document, ?_⟩
      rw [root, Config.ofRoot] at result
      -- What counts as nothing is the mapping without entries, which is read without an error.
      by_cases blank : d.isBlank
      · rw [if_pos blank] at result
        cases result
      · rw [if_neg blank] at result
        rcases Config.reported_ofDatum d _ result with bad | ⟨_, deeper⟩
        · cases bad
        · exact deeper
    · rw [noDocument] at result
      cases result

/-- A configuration that cannot be read is reported, unless it is a document that cannot be parsed
or holds a value that is too deep to be shown. -/
theorem isReported_of_readConfig {name? : Option String}
    (parses : ∀ cause, (readConfig files name?).2 = .error (.config (.document cause)) →
      ∃ message, cause = .badValue message)
    (shallow : ¬ TooDeep files name?) (h : (readConfig files name?).2 = .error e) :
    e.isReported = true := by
  rcases readConfig_error h with reported | ⟨_, _, cause, _, _, _, rfl⟩
  · exact reported
  -- Of the causes in a document only two are not bad values, and each is excluded by a hypothesis.
  · cases cause with
    | document cause =>
        obtain ⟨message, rfl⟩ := parses cause h
        rfl
    | unshown obstacle =>
        cases obstacle with
        | tooLong => rfl
        | tooDeep => exact absurd h shallow
    | _ => rfl

end Reader

/-! ### The image -/

/-- The configuration can be read and built, and the image can be read, holds something and fits
behind the program start. -/
structure Prepared [Config.DocumentReader] (files : Files) (seed : Int) (o : Options)
    (config : Config) (image : List UInt8) (built : Machine) : Prop where
  read : (readConfig files o.config?).2 = .ok config
  build : config.build seed = .ok built
  content : readFile files o.image = .ok image
  nonempty : image ≠ []
  fits : config.programStart + image.length ≤ config.memorySize

/-- A machine with an image in memory from the program start on, ready to run. -/
def loaded (config : Config) (image : List UInt8) (built : Machine) : Loaded where
  machine := (Machine.onBus (Rom.load image config.programStart) built).2
  start := config.programStart
  length := image.length
  period := config.cyclesPerTick.toNat

variable [Config.DocumentReader] {image : List UInt8} {built : Machine}

/-- Without a configuration every image of at most 3584 bytes can be loaded, if there is room for the
machine. -/
theorem exists_prepared_default (room : Config.default.HasRoom) (seed : Int)
    (unset : o.config? = none)
    (content : readFile files o.image = .ok image) (nonempty : image ≠ [])
    (fits : image.length ≤ 0xE00) : ∃ built, Prepared files seed o .default image built := by
  obtain ⟨built, build⟩ : ∃ built, Config.default.build seed = .ok built :=
    Config.exists_build seed (by decide) (by decide) room (by decide) rfl
  refine ⟨built, by rw [unset]; rfl, build, content, nonempty, ?_⟩
  have start : Config.default.programStart = 0x200 := rfl
  have size : Config.default.memorySize = 0x1000 := rfl
  omega

/-- The addresses of an image that fits are mapped. -/
theorem Prepared.maps (h : Prepared files seed o config image built) :
    ∀ k < image.length, built.bus.Maps (config.programStart + k) := by
  intro k inside
  have low := (checked_of_readConfig h.read).start_nonneg
  have fits := h.fits
  exact (Config.maps_of_build h.build).mpr ⟨by omega, by omega⟩

/-- The image goes into memory as a whole. -/
theorem Prepared.onBus_load (h : Prepared files seed o config image built) :
    Machine.onBus (Rom.load image config.programStart) built =
      (.ok image.length, (loaded config image built).machine) := by
  have fits : config.programStart + image.length ≤ built.bus.mappedEnd := by
    rw [Config.mappedEnd_of_build h.build]
    exact h.fits
  have hb := (Config.wellFormed_of_build h.build).backed
  rw [loaded, Machine.onBus_apply, Rom.load_of_maps hb fits h.maps]

/-- The machine is well-formed with the image in memory. -/
theorem Prepared.wellFormed (h : Prepared files seed o config image built) :
    (loaded config image built).machine.WellFormed :=
  (Config.wellFormed_of_build h.build).perform (.load image config.programStart)

/-- A prepared run has its image loaded. -/
theorem loadImage_of_prepared (h : Prepared files seed o config image built) :
    loadImage files config seed o.image = .ok (loaded config image built) := by
  have nonempty : image.isEmpty = false := by simpa using h.nonempty
  have load := h.onBus_load
  unfold loadImage
  rw [h.build, h.content]
  simp only [mapError_ok, bind, Except.bind, nonempty, load]
  rfl

/-- An image that cannot be loaded is reported where there is room for the machine. -/
theorem isReported_of_loadImage (room : config.HasRoom)
    (read : (readConfig files o.config?).2 = .ok config)
    (unprepared : ∀ image built, ¬ Prepared files seed o config image built) :
    ∃ e, loadImage files config seed o.image = .error e ∧ e.isReported = true := by
  unfold loadImage
  cases build : config.build seed with
  | error cause =>
      refine ⟨.fault cause, rfl, ?_⟩
      rw [Error.isReported, Config.kind_of_build room build]
      rfl
  | ok built =>
      cases content : readFile files o.image with
      | error e => exact ⟨e, rfl, isReported_of_readFile content⟩
      | ok image =>
          by_cases empty : image = []
          · subst empty
            exact ⟨.emptyImage o.image, rfl, rfl⟩
          · have large : built.bus.mappedEnd < config.programStart + image.length := by
              rw [Config.mappedEnd_of_build build]
              by_contra fits
              exact unprepared image built ⟨read, build, content, empty, Int.not_lt.mp fits⟩
            have nonempty : image.isEmpty = false := by simpa using empty
            refine ⟨.fault (.imageTooLarge image.length config.programStart built.bus.mappedEnd),
              ?_, rfl⟩
            simp only [mapError_ok, bind, Except.bind, nonempty, Machine.onBus_apply,
              Rom.load_of_excess large]
            rfl

/-! ### Running -/

/-- A run is over with the first error on the way to an image in memory. -/
theorem run_of_error
    (refused : ((readConfig files o.config?).2.bind fun c => loadImage files c seed o.image) =
      .error e) :
    run files seed o = failure (readConfig files o.config?).1 e := by
  simp only [run, refused]

/-- A prepared run does what its options say with the image loaded. -/
theorem run_of_prepared (h : Prepared files seed o config image built) :
    run files seed o = start (readConfig files o.config?).1 o (loaded config image built) := by
  simp only [run, h.read, Except.bind, loadImage_of_prepared h]

/-- A value that is too deep to be shown aborts a run before anything is printed. -/
theorem run_of_tooDeep (h : TooDeep files o.config?) :
    run files seed o =
      .aborted "" (readConfig files o.config?).1 (.config (.unshown .tooDeep)) := by
  unfold TooDeep at h
  simp only [run, h]
  rfl

/-- A run that is not prepared reports an error and prints nothing else. -/
theorem run_of_unprepared
    (parses : ∀ cause, (readConfig files o.config?).2 = .error (.config (.document cause)) →
      ∃ message, cause = .badValue message)
    (room : ∀ config, (readConfig files o.config?).2 = .ok config → config.HasRoom)
    (shallow : ¬ TooDeep files o.config?)
    (unprepared : ∀ config image built, ¬ Prepared files seed o config image built) :
    ∃ e : Error, run files seed o =
      .report ⟨2, "", unlines ["Error: " ++ e.message], (readConfig files o.config?).1⟩ := by
  cases read : (readConfig files o.config?).2 with
  | error e =>
      have reported := isReported_of_readConfig parses shallow read
      have refused := congrArg (Except.bind · fun c => loadImage files c seed o.image) read
      exact ⟨e, by rw [run_of_error refused, failure, if_pos reported]⟩
  | ok config =>
      obtain ⟨e, noImage, reported⟩ :=
        isReported_of_loadImage (room config read) read (unprepared config)
      have refused := congrArg (Except.bind · fun c => loadImage files c seed o.image) read
      rw [Except.bind, noImage] at refused
      exact ⟨e, by rw [run_of_error refused, failure, if_pos reported]⟩

end Host

end Chip8.CommandLine
