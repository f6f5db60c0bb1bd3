/-!
The causes for which a text is no document: its form is wrong, or a scalar in it has no value.
-/

namespace Chip8.Yaml

/-- The cause for which a text is no document. -/
inductive Error where
  /-- The text breaks the rules of the format, or uses a part of it that is not supported. -/
  | malformed
  /-- The text ends inside a quoted scalar or before a bracket is closed. -/
  | unfinished
  /-- A scalar has the form of a value that does not exist. -/
  | badValue (message : String)
  /-- A number to base 60 with a fraction and too many places. -/
  | overflow
  /-- A character code that is no machine word. -/
  | hugeCode
  deriving DecidableEq, Repr

def Error.message : Error → String
  | .malformed => "The document is malformed"
  | .unfinished => "The document is not finished"
  | .badValue message => message
  | .overflow => "int too large to convert to float"
  | .hugeCode => "Python int too large to convert to C int"

end Chip8.Yaml
