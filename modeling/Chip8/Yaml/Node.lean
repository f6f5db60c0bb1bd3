import Chip8.Yaml.Token

/-!
Nodes: scalars, sequences and mappings as the tokens of a document nest them. What is left out
between two marks is a plain scalar without text.

A node may have a name, which then stands for it further on. A name that is used before its node has
ended, so that the node would hold itself, is not supported.
-/

namespace Chip8.Yaml

inductive Node where
  | scalar (plain : Bool) (text : String)
  | sequence (items : List Node)
  | mapping (entries : List (Node × Node))
  | named (name : String) (n : Node)
  | alias (name : String)

namespace Node

/-- The node that stands for what is left out. -/
def absent : Node := .scalar true ""

/-- Whether the first of some tokens ends a value in a block mapping. -/
def endsBlockValue : List Token → Bool
  | .key :: _ | .value :: _ | .blockEnd :: _ => true
  | _ => false

def endsBlockItem : List Token → Bool
  | .dash :: _ | .blockEnd :: _ => true
  | _ => false

/-- Whether the first of some tokens ends an item of a block sequence that is indented no deeper
than the mapping around it. -/
def endsIndentlessItem (ts : List Token) : Bool := endsBlockItem ts || endsBlockValue ts

/-- Whether the first of some tokens ends a part of a flow sequence. -/
def endsFlowItem : List Token → Bool
  | .comma :: _ | .flowSequenceEnd :: _ => true
  | _ => false

def endsFlowValue : List Token → Bool
  | .comma :: _ | .flowMappingEnd :: _ => true
  | _ => false

/-- Whether the first of some tokens is a colon. -/
def atValue : List Token → Bool
  | .value :: _ => true
  | _ => false

/-- Whether the first of some tokens starts the content of a node, where blocks count only as they do
for the node. -/
def startsContent (block indentless : Bool) : List Token → Bool
  | .scalar _ _ :: _ | .flowSequenceStart :: _ | .flowMappingStart :: _ => true
  | .dash :: _ => indentless
  | .sequenceStart :: _ | .mappingStart :: _ => block
  | _ => false

/-- The error where other tokens are called for than those that follow. -/
def unexpected (ts : List Token) : Error := if ts.isEmpty then .unfinished else .malformed

/-- The tokens behind the comma that must stand between two parts. -/
def afterComma (first : Bool) (ts : List Token) : Except Error (List Token) :=
  if first then .ok ts
  else
    match ts with
    | .comma :: rest => .ok rest
    | ts => .error (unexpected ts)

mutual

/-- The node at the start of some tokens. Blocks count only if `block` is set, a block sequence
without indentation of its own only if `indentless` is set. The number bounds the depth. -/
def node : Nat → Bool → Bool → List Token → Except Error (Node × List Token)
  | 0, _, _, _ => .error .malformed
  | bound + 1, block, indentless, ts =>
    match ts with
    | .scalar plain text :: rest => .ok (.scalar plain text, rest)
    | .alias name :: rest => .ok (.alias name, rest)
    | .anchor name :: rest => do
      let (n, rest) ← nodeUnless bound (!startsContent block indentless rest) block indentless rest
      return (.named name n, rest)
    | .flowSequenceStart :: rest => do
      let (items, rest) ← flowItems bound true rest
      return (.sequence items, rest)
    | .flowMappingStart :: rest => do
      let (entries, rest) ← flowEntries bound true rest
      return (.mapping entries, rest)
    | .dash :: _ =>
      if indentless then do
        let (items, rest) ← indentlessItems bound ts
        return (.sequence items, rest)
      else .error .malformed
    | .sequenceStart :: rest =>
      if block then do
        let (items, rest) ← blockItems bound rest
        return (.sequence items, rest)
      else .error .malformed
    | .mappingStart :: rest =>
      if block then do
        let (entries, rest) ← blockEntries bound rest
        return (.mapping entries, rest)
      else .error .malformed
    | ts => .error (unexpected ts)

/-- A node, or nothing where the part that it would be ends at once. -/
def nodeUnless : Nat → Bool → Bool → Bool → List Token → Except Error (Node × List Token)
  | 0, _, _, _, _ => .error .malformed
  | bound + 1, ended, block, indentless, ts =>
    if ended then .ok (absent, ts) else node bound block indentless ts

def blockItems : Nat → List Token → Except Error (List Node × List Token)
  | 0, _ => .error .malformed
  | bound + 1, ts =>
    match ts with
    | .dash :: rest => do
      let (item, rest) ← nodeUnless bound (endsBlockItem rest) true false rest
      let (items, rest) ← blockItems bound rest
      return (item :: items, rest)
    | .blockEnd :: rest => .ok ([], rest)
    | ts => .error (unexpected ts)

/-- The items of a block sequence without indentation of its own. -/
def indentlessItems : Nat → List Token → Except Error (List Node × List Token)
  | 0, _ => .error .malformed
  | bound + 1, ts =>
    match ts with
    | .dash :: rest => do
      let (item, rest) ← nodeUnless bound (endsIndentlessItem rest) true false rest
      let (items, rest) ← indentlessItems bound rest
      return (item :: items, rest)
    | rest => .ok ([], rest)

def blockEntries : Nat → List Token → Except Error (List (Node × Node) × List Token)
  | 0, _ => .error .malformed
  | bound + 1, ts =>
    match ts with
    | .key :: rest => do
      let (k, rest) ← nodeUnless bound (endsBlockValue rest) true true rest
      blockValue bound k rest
    | .blockEnd :: rest => .ok ([], rest)
    | ts => .error (unexpected ts)

def blockValue : Nat → Node → List Token → Except Error (List (Node × Node) × List Token)
  | 0, _, _ => .error .malformed
  | bound + 1, k, ts =>
    match ts with
    | .value :: rest => do
      let (v, rest) ← nodeUnless bound (endsBlockValue rest) true true rest
      let (entries, rest) ← blockEntries bound rest
      return ((k, v) :: entries, rest)
    | rest => do
      let (entries, rest) ← blockEntries bound rest
      return ((k, absent) :: entries, rest)

/-- The items of a flow sequence. An item with a colon is a mapping of one entry. -/
def flowItems : Nat → Bool → List Token → Except Error (List Node × List Token)
  | 0, _, _ => .error .malformed
  | bound + 1, first, ts =>
    match ts with
    | .flowSequenceEnd :: rest => .ok ([], rest)
    | ts => do
      let ts ← afterComma first ts
      match ts with
      | .flowSequenceEnd :: rest => .ok ([], rest)
      | .key :: rest => do
        let (k, rest) ← nodeUnless bound (atValue rest || endsFlowItem rest) false false rest
        let (v, rest) ← nodeUnless bound (!atValue rest || endsFlowItem (rest.drop 1)) false false
          (if atValue rest then rest.drop 1 else rest)
        let (items, rest) ← flowItems bound false rest
        return (.mapping [(k, v)] :: items, rest)
      | ts => do
        let (item, rest) ← node bound false false ts
        let (items, rest) ← flowItems bound false rest
        return (item :: items, rest)

/-- The entries of a flow mapping. A key may stand there without a value. -/
def flowEntries : Nat → Bool → List Token → Except Error (List (Node × Node) × List Token)
  | 0, _, _ => .error .malformed
  | bound + 1, first, ts =>
    match ts with
    | .flowMappingEnd :: rest => .ok ([], rest)
    | ts => do
      let ts ← afterComma first ts
      match ts with
      | .flowMappingEnd :: rest => .ok ([], rest)
      | .key :: rest => do
        let (k, rest) ← nodeUnless bound (atValue rest || endsFlowValue rest) false false rest
        let (v, rest) ← nodeUnless bound (!atValue rest || endsFlowValue (rest.drop 1)) false false
          (if atValue rest then rest.drop 1 else rest)
        let (entries, rest) ← flowEntries bound false rest
        return ((k, v) :: entries, rest)
      | ts => do
        let (k, rest) ← node bound false false ts
        let (entries, rest) ← flowEntries bound false rest
        return ((k, absent) :: entries, rest)

end

/-- Some tokens without the ends of documents at their start. -/
def afterEnds : List Token → List Token
  | .documentEnd :: rest => afterEnds rest
  | ts => ts

/-! ### Names -/

abbrev Names := List (String × Node)

/-- The names with one more; no two nodes have one name. -/
def addName (names : Names) (name : String) (n : Node) : Except Error Names :=
  if (names.lookup name).isSome then .error .malformed else .ok ((name, n) :: names)

mutual

/-- A node with the nodes in place of their names, and the names known behind it. -/
def resolve (names : Names) : Node → Except Error (Node × Names)
  | .scalar plain text => .ok (.scalar plain text, names)
  | .sequence items => do
    let (items, names) ← resolveItems names items
    return (.sequence items, names)
  | .mapping entries => do
    let (entries, names) ← resolveEntries names entries
    return (.mapping entries, names)
  | .named name n => do
    let (n, names) ← resolve names n
    return (n, ← addName names name n)
  | .alias name =>
    match names.lookup name with
    | some n => .ok (n, names)
    | none => .error .malformed

def resolveItems (names : Names) : List Node → Except Error (List Node × Names)
  | [] => .ok ([], names)
  | n :: rest => do
    let (n, names) ← resolve names n
    let (rest, names) ← resolveItems names rest
    return (n :: rest, names)

def resolveEntries (names : Names) : List (Node × Node) → Except Error (List (Node × Node) × Names)
  | [] => .ok ([], names)
  | (k, v) :: rest => do
    let (k, names) ← resolve names k
    let (v, names) ← resolve names v
    let (rest, names) ← resolveEntries names rest
    return ((k, v) :: rest, names)

end

/-- Whether every name that stands for a node has been given before, and none twice. -/
def namesAgree (known : List String) : List Token → Bool
  | .anchor name :: rest => !known.contains name && namesAgree (name :: known) rest
  | .alias name :: rest => known.contains name && namesAgree known rest
  | _ :: rest => namesAgree known rest
  | [] => true

/-! ### Documents -/

/-- The content of a document whose start, if it has one, has been read. -/
def content (ts : List Token) : Except Error Node := do
  let (n, rest) ← node (3 * ts.length + 3) true false ts
  if (afterEnds rest).isEmpty then return (← n.resolve []).1 else .error .malformed

def ofTokens (ts : List Token) : Except Error (Option Node) :=
  match ts with
  | [] => .ok none
  | .documentStart :: rest =>
    match rest with
    | [] | .documentEnd :: _ =>
      if (afterEnds rest).isEmpty then .ok (some absent) else .error .malformed
    | rest => (content rest).map some
  | ts => (content ts).map some

end Node

end Chip8.Yaml
