/-!
The host: what the program finds where it runs.

Nothing is assumed of a host. What holds on every one of them is stated for `[Host]`.
-/

namespace Chip8

class Host where
  /-- The greatest number of cells that there is room for. -/
  room : Nat
  /-- How many values can lie in each other if the text of the outermost one is to be shown. -/
  depth : Nat
  /-- Whether a divider that is attached to an option is dropped, which leaves the option without a
  value. A divider stands before the arguments that are no options, so a host need not drop any
  other. -/
  dropsAttached : Bool

end Chip8
