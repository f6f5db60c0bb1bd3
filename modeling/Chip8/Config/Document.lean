import Chip8.Config

/-!
Configurations as documents. A document of nothing is the configuration in which nothing is set.

How a document is read is left open: what holds with every reader is stated for `[DocumentReader]`.
-/

namespace Chip8.Config

class DocumentReader where
  /-- The data that the bytes of a file stand for. -/
  read : List UInt8 → Except Yaml.Error Datum

/-- Reads a configuration from data in which what is blank counts as an empty mapping. -/
def ofRoot [Host] (d : Datum) : Reading := ofDatum (if d.isBlank then .map [] else d)

def ofBytes [Host] [DocumentReader] (bytes : List UInt8) : Reading :=
  match DocumentReader.read bytes with
  | .ok d => ofRoot d
  | .error e => ⟨[], .error (.document e)⟩

def ofText [Host] [DocumentReader] (text : String) : Reading := ofBytes text.toUTF8.toList

end Chip8.Config
