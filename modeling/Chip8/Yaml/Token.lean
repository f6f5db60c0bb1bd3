import Chip8.Yaml.Scalar

/-!
Tokens: the scalars and marks of a document in order, with the starts and ends of blocks that the
indentation stands for.

A scalar or a bracket may turn out to be a key only when the colon behind it is met. Until then it
is remembered as a possible key, one for each level of brackets, and the tokens that make it a key
are put in front of it afterwards. A possible key must be on the line of its colon and at most 1024
characters before it.
-/

namespace Chip8.Yaml

inductive Token where
  | documentStart
  | documentEnd
  | sequenceStart
  | mappingStart
  | blockEnd
  | flowSequenceStart
  | flowSequenceEnd
  | flowMappingStart
  | flowMappingEnd
  /-- The dash of a block sequence. -/
  | dash
  | comma
  | key
  | value
  | scalar (plain : Bool) (text : String)
  /-- A name for the node behind it. -/
  | anchor (name : String)
  /-- The name of a node in place of the node. -/
  | alias (name : String)
  deriving DecidableEq, Repr

/-- A token that may be a key: its place among the tokens and in the text, and whether the
indentation demands that it is one. -/
structure PossibleKey where
  position : Nat
  required : Bool
  mark : Mark
  deriving DecidableEq, Repr

/-- What has been read of a document: the rest, the tokens, the indentation of the open blocks with
the innermost first, the possible keys of the levels of brackets with the innermost first, and
whether a key may start here. -/
structure Scan where
  rest : List Mark
  tokens : Array Token
  indents : List Int
  keys : List (Option PossibleKey)
  keyAllowed : Bool

namespace Scan

def start (ms : List Mark) : Scan := ⟨ms, #[], [], [none], true⟩

def inFlow (s : Scan) : Bool := 1 < s.keys.length

def indent (s : Scan) : Int := s.indents.headD (-1)

def push (s : Scan) (t : Token) : Scan := { s with tokens := s.tokens.push t }

def skip (s : Scan) (count : Nat) : Scan := { s with rest := s.rest.drop count }

def allowKey (s : Scan) (allowed : Bool) : Scan := { s with keyAllowed := allowed }

/-! ### White space and comments -/

/-- A text without the blanks, comments and line breaks at its start, and whether there was a line
break. -/
def skipWhite (inComment crossed : Bool) : List Mark → List Mark × Bool
  | [] => ([], crossed)
  | m :: rest =>
    if isBreak m.char then skipWhite false true rest
    else if inComment && m.char != endChar then skipWhite true crossed rest
    else if m.char == ' ' then skipWhite false crossed rest
    else if m.char == '#' then skipWhite true crossed rest
    else if m.char == orderMark && m.index == 0 then skipWhite false crossed rest
    else (m :: rest, crossed)

/-- The state in front of the next token. -/
def toToken (s : Scan) : Scan :=
  let (rest, crossed) := skipWhite false false s.rest
  { s with rest := rest, keyAllowed := s.keyAllowed || (crossed && !s.inFlow) }

/-! ### Possible keys -/

/-- A possible key that is still one at a place; one that is demanded must not lapse. -/
def freshKey (here : Mark) : Option PossibleKey → Except Error (Option PossibleKey)
  | none => .ok none
  | some k =>
    if k.mark.line ≠ here.line ∨ 1024 < here.index - k.mark.index then
      if k.required then .error .malformed else .ok none
    else .ok (some k)

/-- The state without the possible keys that have lapsed. -/
def dropStale (s : Scan) (here : Mark) : Except Error Scan := do
  let keys ← s.keys.mapM (freshKey here)
  return { s with keys := keys }

/-- The state without the possible key of the innermost level; one that is demanded must not be
given up. -/
def dropKey (s : Scan) : Except Error Scan :=
  match s.keys with
  | some k :: keys => if k.required then .error .malformed else .ok { s with keys := none :: keys }
  | _ => .ok s

/-- The state with the next token remembered as a possible key. -/
def saveKey (s : Scan) (here : Mark) : Except Error Scan :=
  if s.keyAllowed then do
    let s ← s.dropKey
    let key : PossibleKey :=
      ⟨s.tokens.size, !s.inFlow && s.indent == here.column, here⟩
    return { s with keys := some key :: s.keys.drop 1 }
  else .ok s

/-! ### Indentation -/

/-- Closes the blocks that are indented by more than a column. -/
def closeBlocks (column : Int) (tokens : Array Token) : List Int → Array Token × List Int
  | [] => (tokens, [])
  | i :: rest =>
    if column < i then closeBlocks column (tokens.push .blockEnd) rest else (tokens, i :: rest)

/-- The state with the blocks closed that are indented by more than a column. -/
def unwind (s : Scan) (column : Int) : Scan :=
  if s.inFlow then s
  else
    let (tokens, indents) := closeBlocks column s.tokens s.indents
    { s with tokens := tokens, indents := indents }

/-- The state with a block opened at a column, unless one at least as deep is open. -/
def openBlock (s : Scan) (column : Nat) (t : Token) : Scan :=
  if s.indent < column then
    { s with tokens := s.tokens.push t, indents := (column : Int) :: s.indents }
  else s

/-! ### Tokens -/

def separator (s : Scan) (t : Token) : Except Error Scan := do
  let s ← (s.unwind (-1)).dropKey
  return ((s.allowKey false).skip 3).push t

def flowStart (s : Scan) (here : Mark) (t : Token) : Except Error Scan := do
  let s ← s.saveKey here
  return ({ s with keys := none :: s.keys, keyAllowed := true }.skip 1).push t

def flowEnd (s : Scan) (t : Token) : Except Error Scan := do
  let s ← s.dropKey
  if s.inFlow then
    return ({ s with keys := s.keys.drop 1, keyAllowed := false }.skip 1).push t
  else .error .malformed

def comma (s : Scan) : Except Error Scan := do
  let s ← (s.allowKey true).dropKey
  return (s.skip 1).push .comma

def dash (s : Scan) (here : Mark) : Except Error Scan := do
  if !s.inFlow && !s.keyAllowed then throw .malformed
  let s := if s.inFlow then s else s.openBlock here.column .sequenceStart
  let s ← (s.allowKey true).dropKey
  return (s.skip 1).push .dash

def explicitKey (s : Scan) (here : Mark) : Except Error Scan := do
  if !s.inFlow && !s.keyAllowed then throw .malformed
  let s := if s.inFlow then s else s.openBlock here.column .mappingStart
  let s ← (s.allowKey !s.inFlow).dropKey
  return (s.skip 1).push .key

def colon (s : Scan) (here : Mark) : Except Error Scan :=
  match s.keys with
  | some k :: keys =>
    let opens := !s.inFlow && decide (s.indent < k.mark.column)
    let before := if opens then #[Token.mappingStart, Token.key] else #[Token.key]
    let indents := if opens then (k.mark.column : Int) :: s.indents else s.indents
    let tokens := s.tokens.extract 0 k.position ++ before ++
      s.tokens.extract k.position s.tokens.size
    .ok (({ s with tokens := tokens, indents := indents, keys := none :: keys,
                   keyAllowed := false }.skip 1).push .value)
  | _ => do
    if !s.inFlow && !s.keyAllowed then throw .malformed
    let s := if s.inFlow then s else s.openBlock here.column .mappingStart
    let s ← (s.allowKey !s.inFlow).dropKey
    return (s.skip 1).push .value

def quoted (s : Scan) (here : Mark) (double : Bool) : Except Error Scan := do
  let s ← s.saveKey here
  let (text, rest) ← quotedScalar double (s.rest.drop 1)
  return { s with rest := rest, keyAllowed := false }.push (.scalar false text)

def plain (s : Scan) (here : Mark) : Except Error Scan := do
  let s ← s.saveKey here
  let (text, crossed, rest) := plainScalar s.inFlow (s.indent + 1) s.rest
  return { s with rest := rest, keyAllowed := crossed }.push (.scalar true text)

/-- Whether a character may stand in the name of a node. -/
def isNameChar (c : Char) : Bool := c.isAlphanum || c == '-' || c == '_'

/-- Whether the name of a node may end before a character. -/
def endsName (c : Char) : Bool :=
  isWhite c || ['?', ':', ',', ']', '\x7d', '%', '@', '\x60'].contains c

/-- The name of a node behind the mark `&` or `*`. -/
def name (s : Scan) (here : Mark) (t : String → Token) : Except Error Scan := do
  let s ← s.saveKey here
  let behind := s.rest.drop 1
  let cs := (behind.takeWhile fun m => isNameChar m.char).map Mark.char
  let rest := behind.drop cs.length
  if cs.isEmpty || !endsName (headChar rest) then throw (misplaced (headChar rest))
  return { s with rest := rest, keyAllowed := false }.push (t (String.ofList cs))

/-- Whether a plain scalar can start with a character that another one follows. -/
def startsPlain (inFlow : Bool) (c next : Char) : Bool :=
  !(isWhite c || isFlowMark c ||
      ['-', '?', ':', '#', '&', '*', '!', '|', '>', '\'', '"', '%', '@', '\x60'].contains c) ||
    (!isWhite next && (c == '-' || (!inFlow && (c == '?' || c == ':'))))

def token (s : Scan) (here : Mark) (next : Char) : Except Error Scan :=
  let c := here.char
  let apart := isWhite next
  if here.column == 0 && isSeparator '-' s.rest then s.separator .documentStart
  else if here.column == 0 && isSeparator '.' s.rest then s.separator .documentEnd
  else if c == '[' then s.flowStart here .flowSequenceStart
  else if c == '\x7b' then s.flowStart here .flowMappingStart
  else if c == ']' then s.flowEnd .flowSequenceEnd
  else if c == '\x7d' then s.flowEnd .flowMappingEnd
  else if c == ',' then s.comma
  else if c == '-' && apart then s.dash here
  else if c == '?' && (s.inFlow || apart) then s.explicitKey here
  else if c == ':' && (s.inFlow || apart) then s.colon here
  else if c == '*' then s.name here .alias
  else if c == '&' then s.name here .anchor
  else if c == '\'' then s.quoted here false
  else if c == '"' then s.quoted here true
  else if startsPlain s.inFlow c next then s.plain here
  else .error .malformed

/-- Reads a document to its end; `bound` bounds the tokens that are read. -/
def finish : Nat → Scan → Except Error (List Token)
  | 0, _ => .error .malformed
  | bound + 1, s => do
    let s := s.toToken
    match s.rest with
    | [] => .error .malformed
    | here :: rest =>
      let s ← s.dropStale here
      let s := s.unwind here.column
      if here.char == endChar then do
        let s ← (s.unwind (-1)).dropKey
        return s.tokens.toList
      else do
        let s ← s.token here (headChar rest)
        finish bound s

/-! ### Texts that go on -/

/-- Whether a text holds no more than the place behind its last character. -/
def isAtEnd : List Mark → Bool
  | [] | [_] => true
  | _ => false

/-- Whether the text from the start of a line on is too short to tell whether it starts with a
separator of documents. -/
def isCutShort (ms : List Mark) : Bool :=
  match ms.drop 3 with
  | [] => true
  | [_] => atSeparator ms
  | _ => false

/-- Whether a token at the start of a text may look different when the text goes on, where `rest`
follows the token. -/
def reachesEnd (ms rest : List Mark) : Bool :=
  let line := headLine rest
  isAtEnd rest || (decide (headLine ms < line) && isCutShort (ms.dropWhile fun m => m.line < line))

/-- Reads a document as far as its start tells: up to the first token that reaches the end of what is
there. `bound` bounds the tokens that are read. -/
def advance : Nat → Scan → Except Error Scan
  | 0, s => .ok s
  | bound + 1, s => do
    let ahead := s.toToken
    match ahead.rest with
    | here :: next :: more =>
      let ahead ← ahead.dropStale here
      let mayBeSeparator := here.column == 0 && (here.char == '-' || here.char == '.')
      if more.isEmpty || (mayBeSeparator && isCutShort ahead.rest) then return s
      else
        match (ahead.unwind here.column).token here next.char with
        | .error .unfinished => return s
        | .error e => throw e
        | .ok after =>
          if reachesEnd ahead.rest after.rest then return s else advance bound after
    | _ => return s

/-- The tokens in front of every possible key, which a key mark may still be put before. -/
def settled (s : Scan) : Except Error (List Token) := do
  let s ← match s.rest with
    | here :: _ => s.dropStale here
    | [] => .ok s
  let positions := s.keys.filterMap fun k => k.map PossibleKey.position
  return (s.tokens.extract 0 (positions.foldl min s.tokens.size)).toList

end Scan

def tokens (cs : List Char) : Except Error (List Token) :=
  Scan.finish (cs.length + 1) (Scan.start (marks cs))

/-- The tokens at the start of a document that goes on behind a text. -/
def startTokens (cs : List Char) : Except Error (List Token) := do
  (← Scan.advance (cs.length + 1) (Scan.start (marks cs))).settled

end Chip8.Yaml
