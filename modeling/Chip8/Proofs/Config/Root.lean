import Chip8.CommandLine

/-!
The root of a configuration document.

A null root stands for the mapping without entries, and a mapping for itself. A root of another type
is refused just as such data is, unless it counts as nothing (`Hollow`): false, a zero, and a text,
bytes, a list, a tuple or a set without anything in it are replaced by the mapping without entries
before the type is looked at (`wrong_root_refused_iff`). This holds with every reader of documents.
-/

namespace Chip8.Config

/-! ### Values that count as nothing -/

/-- Neither null nor a mapping. -/
def IsWrongRoot (d : Datum) : Prop := d ≠ .null ∧ d.isMapping = false

/-- The values that count as nothing and are neither null nor a mapping. -/
inductive Hollow : Datum → Prop where
  | no : Hollow (.bool false)
  | zero : Hollow (.int 0)
  | real {x : Binary64} : x.isZero → Hollow (.real x)
  | text : Hollow (.text "")
  | bytes : Hollow (.bytes [])
  | list : Hollow (.list [])
  | tuple : Hollow (.tuple [])
  | set : Hollow (.set [])

variable {d : Datum}

theorem Hollow.isBlank (hollow : Hollow d) : d.isBlank := by
  cases hollow with
  | real zero => exact zero
  | _ => rfl

/-- Of the values that are neither null nor mappings, the hollow ones count as nothing. -/
theorem isBlank_iff_hollow (wrong : IsWrongRoot d) : d.isBlank ↔ Hollow d := by
  refine ⟨fun blank => ?_, Hollow.isBlank⟩
  cases d with
  | null => exact absurd rfl wrong.1
  | map entries => cases wrong.2
  | bool b =>
      cases b with
      | false => exact .no
      | true => cases blank
  | int n =>
      obtain rfl : n = 0 := by simpa [Datum.isBlank] using blank
      exact .zero
  | real x => exact .real blank
  | text s =>
      obtain rfl : s = "" := by simpa [Datum.isBlank] using blank
      exact .text
  | bytes bs =>
      obtain rfl := List.isEmpty_iff.mp blank
      exact .bytes
  | list items =>
      obtain rfl := List.isEmpty_iff.mp blank
      exact .list
  | tuple items =>
      obtain rfl := List.isEmpty_iff.mp blank
      exact .tuple
  | set items =>
      obtain rfl := List.isEmpty_iff.mp blank
      exact .set
  | date | moment | listAgain | mapAgain => cases blank

/-! ### Documents -/

theorem ofBytes_of_read [Host] [DocumentReader] {bytes : List UInt8}
    (read : DocumentReader.read bytes = .ok d) : ofBytes bytes = ofRoot d := by
  simp only [ofBytes, read]

/-- Data that is no mapping is refused with its type, whatever it holds. -/
theorem ofDatum_of_wrong [Host] (wrong : IsWrongRoot d) :
    ofDatum d = ⟨[], .error (.rootType d.typeName)⟩ := by
  cases d with
  | map entries => cases wrong.2
  | _ => rfl

theorem ofRoot_of_hollow [Host] (hollow : Hollow d) : ofRoot d = ⟨[], .ok default⟩ := by
  rw [ofRoot, if_pos hollow.isBlank]
  rfl

/-- A document is read as its root is, whatever reads it. A null root stands for the mapping without
entries, and a mapping for itself. Any other root is refused with the text that it must be a mapping,
just as the data itself is, except for the values that count as nothing: these are read as the
configuration in which nothing is set. -/
theorem wrong_root_refused_iff [Host] [DocumentReader] (d : Datum) :
    (∀ bytes, DocumentReader.read bytes = .ok d → ofBytes bytes = ofRoot d) ∧
    (d = .null → ofRoot d = ofDatum (.map [])) ∧
    (∀ entries, d = .map entries → ofRoot d = ofDatum (.map entries)) ∧
    (IsWrongRoot d →
      ofDatum d = ⟨[], .error (.rootType d.typeName)⟩ ∧
      (Error.rootType d.typeName).message =
        "Configuration root must be a mapping, got " ++ d.typeName ∧
      (ofRoot d = ofDatum d ↔ ¬ Hollow d) ∧
      (Hollow d → ofRoot d = ⟨[], .ok default⟩)) := by
  refine ⟨fun bytes => ofBytes_of_read, ?_, ?_, fun wrong => ?_⟩
  · rintro rfl
    rfl
  · rintro entries rfl
    cases entries <;> rfl
  · refine ⟨ofDatum_of_wrong wrong, rfl, ?_, ofRoot_of_hollow⟩
    constructor
    · intro refused hollow
      rw [ofRoot_of_hollow hollow, ofDatum_of_wrong wrong] at refused
      cases refused
    · intro solid
      rw [ofRoot, if_neg (mt (isBlank_iff_hollow wrong).mp solid)]

/-- The document of a list with one item is refused. -/
theorem filled_list_refused :
    Yaml.readBytes "[1]\n".toUTF8.toList = .ok (.list [.int 1]) ∧
      ofText "[1]\n" = ⟨[], .error (.rootType "list")⟩ := by
  have read : Yaml.readBytes "[1]\n".toUTF8.toList = .ok (.list [.int 1]) := by
    rw [Yaml.readBytes, show Text.Content.ofBytes "[1]\n".toUTF8.toList = .whole "[1]\n" by
      decide +kernel]
    rfl
  obtain ⟨document, _, _, other⟩ := wrong_root_refused_iff (.list [.int 1])
  obtain ⟨_, _, refused, _⟩ := other ⟨nofun, rfl⟩
  refine ⟨read, ?_⟩
  rw [ofText, document _ read, refused.mpr nofun]
  rfl

/-- The document of a list without items is read as the configuration in which nothing is set,
although the list itself is refused. -/
theorem empty_list_read_as_default :
    Yaml.readBytes "[]\n".toUTF8.toList = .ok (.list []) ∧ IsWrongRoot (.list []) ∧
      (ofDatum (.list [])).result = .error (.rootType "list") ∧
      ofText "[]\n" = ⟨[], .ok default⟩ := by
  have read : Yaml.readBytes "[]\n".toUTF8.toList = .ok (.list []) := by
    rw [Yaml.readBytes, show Text.Content.ofBytes "[]\n".toUTF8.toList = .whole "[]\n" by
      decide +kernel]
    rfl
  refine ⟨read, ⟨nofun, rfl⟩, rfl, ?_⟩
  rw [ofText, ofBytes_of_read read, ofRoot_of_hollow .list]

end Chip8.Config
