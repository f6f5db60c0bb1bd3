import Chip8.Yaml.Node
import Chip8.Yaml.Plain

/-!
The data that a node stands for. Quoted scalars are texts whatever their form; a key must be a
scalar, and the last value of a repeated key counts.

Of several nodes without a value, the one that lies least deep counts, and of those at one depth the
first in the document.
-/

namespace Chip8.Yaml

/-- A node without a value: how deep it lies, and why it has none. -/
structure Misfit where
  depth : Nat
  cause : Error
  deriving DecidableEq, Repr

/-- Of two misfits in the order of the document, the one that counts. -/
def Misfit.prior (first second : Misfit) : Misfit :=
  if second.depth < first.depth then second else first

/-- Combines two results in the order of the document. -/
def both {α β γ : Type} (f : α → β → γ) : Except Misfit α → Except Misfit β → Except Misfit γ
  | .ok a, .ok b => .ok (f a b)
  | .ok _, .error e => .error e
  | .error e, .ok _ => .error e
  | .error d, .error e => .error (d.prior e)

/-- Whether two keys are the same. In a document, all floating-point keys that are no numbers are
one key. -/
def sameKey : Datum → Datum → Bool
  | .real .nan, .real .nan => true
  | k, l => k.sameKey l

namespace Node

/-- The data that a key stands for. The equals sign is a text here; keys that merge mappings, and
keys that are sequences or mappings, are not supported. -/
def keyDatum (depth : Nat) : Node → Except Misfit Datum
  | .scalar plain text =>
    if plain && text != "=" then (Plain.datum text).mapError (⟨depth, ·⟩) else .ok (.text text)
  | _ => .error ⟨depth, .malformed⟩

mutual

/-- The data that a node at a depth stands for. -/
def datum (depth : Nat) : Node → Except Misfit Datum
  | .scalar plain text =>
    if plain then (Plain.datum text).mapError (⟨depth, ·⟩) else .ok (.text text)
  | .sequence items => (itemData (depth + 1) items).map .list
  | .mapping entries => (entryData (depth + 1) entries).map (Datum.collect sameKey)
  | .named _ n => datum depth n
  | .alias _ => .error ⟨depth, .malformed⟩

def itemData (depth : Nat) : List Node → Except Misfit (List Datum)
  | [] => .ok []
  | n :: rest => both List.cons (datum depth n) (itemData depth rest)

def entryData (depth : Nat) : List (Node × Node) → Except Misfit (List (Datum × Datum))
  | [] => .ok []
  | (k, v) :: rest =>
    both List.cons (both Prod.mk (keyDatum depth k) (datum depth v)) (entryData depth rest)

end

def rootDatum (n : Node) : Except Error Datum := (n.datum 0).mapError Misfit.cause

end Node

end Chip8.Yaml
