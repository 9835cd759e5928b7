import PascalCheck.Yaml.Token

namespace PascalCheck.Yaml

open Text (isBlank isLineBreak)

/-- A place where a key may have started: the number of its first token, and where that stands. A
required key is the only thing that can stand there. -/
structure KeyStart where
  number : Nat
  index : Nat
  line : Nat
  column : Nat
  required : Bool
deriving DecidableEq, Repr

def KeyStart.isOpen (k : KeyStart) (c : Cursor) : Bool :=
  k.line == c.line && c.index ≤ k.index + 1024

/-- What has been read: the place in the text, the indentations of the open blocks, innermost
first, the number of open brackets, whether a key may start here, where keys may have started,
innermost bracket first, the tokens that wait, and the number of those handed out. -/
structure Scanner where
  cursor : Cursor
  indent : Int
  indents : List Int
  depth : Nat
  keyAllowed : Bool
  keys : List (Option KeyStart)
  waiting : List Token
  taken : Nat
deriving DecidableEq, Repr

namespace Scanner

def ofChars (cs : List Char) : Scanner := ⟨.ofChars cs, -1, [], 0, true, [none], [], 0⟩

def deepest : Nat := 10000

/-- The place of the next comment after a line, if only space stands before it. The look ahead is
short and ends at rare line breaks. -/
def nextComment? (c : Cursor) : Option Nat :=
  let space := (c.rest.take 512).takeWhile fun x => isBlank x || x == '\n' || x == '\r'
  if c.rest.head?.any (fun x => x == '\n' || x == '\r') && space.length < 512 &&
      (c.rest.drop space.length).head? = some '#' then
    some (c.index + space.length)
  else none

def skipComments : Nat → Cursor → Cursor
  | 0, c => c
  | bound + 1, c =>
    let c := c.skipLine
    match nextComment? c with
    | some index => skipComments bound (c.advanceTo index c.rest.length)
    | none => c

/-- The place of the next token, and whether a key may start there. Tabs are space between brackets
and where no key may start. -/
def skipSpace (inFlow : Bool) : Nat → Bool → Cursor → Bool × Cursor
  | 0, allowed, c => (allowed, c)
  | bound + 1, allowed, c =>
    let c := if c.column == 0 && c.peek? = some '\ufeff' then c.skip else c
    let c := c.skipWhile fun x => x == ' ' || ((inFlow || !allowed) && x == '\t')
    let c := if c.peek? = some '#' then skipComments (c.rest.length + 1) c else c
    if c.atBreak then skipSpace inFlow bound (allowed || !inFlow) c.skipBreak else (allowed, c)

def skipLineComment (s : Scanner) : Scanner :=
  let blanks := ((s.cursor.rest.take 512).takeWhile isBlank).length
  if !s.cursor.fresh && blanks < 512 && (s.cursor.rest.drop blanks).head? = some '#' then
    { s with cursor := s.cursor.skipLine }
  else s

def push (s : Scanner) (t : Token) : Scanner := { s with waiting := s.waiting ++ [t] }

def closeBlocks (column : Int) : Int → List Int → Nat × Int × List Int
  | indent, [] => (0, indent, [])
  | indent, outer :: indents =>
    if column < indent then
      let (n, indent, indents) := closeBlocks column outer indents
      (n + 1, indent, indents)
    else (0, indent, outer :: indents)

/-- Ends the blocks that are indented further than a column. Brackets keep them open. -/
def unroll (s : Scanner) (column : Int) : Scanner :=
  if 0 < s.depth then s
  else
    let (n, indent, indents) := closeBlocks column s.indent s.indents
    { s with indent, indents, waiting := s.waiting ++ List.replicate n .blockEnd }

/-- Starts a block at a column, if that is indented further, before the token with a number or
after all tokens. -/
def roll? (s : Scanner) (column : Nat) (t : Token) (number : Option Nat) : Option Scanner :=
  if 0 < s.depth || column ≤ s.indent then some s
  else if deepest ≤ s.indents.length then none
  else
    let n := (number.map (· - s.taken)).getD s.waiting.length
    some { s with
      indent := column
      indents := s.indent :: s.indents
      waiting := s.waiting.take n ++ t :: s.waiting.drop n }

def dropKey? (s : Scanner) : Option Scanner :=
  match s.keys with
  | some k :: keys => if k.required then none else some { s with keys := none :: keys }
  | _ => some s

def startKey? (s : Scanner) : Option Scanner :=
  if !s.keyAllowed then some s
  else do
    let s ← s.dropKey?
    let c := s.cursor
    let k : KeyStart := ⟨s.taken + s.waiting.length, c.index, c.line, c.column,
      s.depth == 0 && s.indent == c.column⟩
    return { s with keys := some k :: s.keys.tail }

def take (s : Scanner) (width : Nat) (t : Token) : Scanner :=
  { s with cursor := s.cursor.skipMany width }.push t

def readEnd? (s : Scanner) : Option Scanner := do
  let c := s.cursor
  let c := if c.column = 0 then c else { c with column := 0, line := c.line + 1 }
  let s ← ({ s with cursor := c }.unroll (-1)).dropKey?
  return { s with keyAllowed := false }.push .streamEnd

def readDirectiveToken? (s : Scanner) : Option Scanner := do
  let s ← (s.unroll (-1)).dropKey?
  let (t, cursor) ← readDirective? s.cursor.skip
  return { s with keyAllowed := false, cursor }.push t

def readMark? (s : Scanner) (t : Token) : Option Scanner := do
  let s ← (s.unroll (-1)).dropKey?
  return { s with keyAllowed := false }.take 3 t

def readOpening? (s : Scanner) (t : Token) : Option Scanner := do
  let s ← s.startKey?
  if deepest ≤ s.depth then none
  return { s with depth := s.depth + 1, keys := none :: s.keys, keyAllowed := true }.take 1 t

def readClosing? (s : Scanner) (t : Token) : Option Scanner := do
  let s ← s.dropKey?
  let s := if 0 < s.depth then { s with depth := s.depth - 1, keys := s.keys.tail } else s
  return { s with keyAllowed := false }.take 1 t

def readFlowEntry? (s : Scanner) : Option Scanner := do
  let s ← s.dropKey?
  return { s with keyAllowed := true }.take 1 .flowEntry

def readBlockEntry? (s : Scanner) : Option Scanner := do
  if s.depth = 0 && !s.keyAllowed then none
  let s ← (← s.roll? s.cursor.column .blockSequenceStart none).dropKey?
  return { s with keyAllowed := true }.take 1 .blockEntry

def readKey? (s : Scanner) : Option Scanner := do
  if s.depth = 0 && !s.keyAllowed then none
  let s ← (← s.roll? s.cursor.column .blockMappingStart none).dropKey?
  return { s with keyAllowed := s.depth == 0 }.take 1 .key

/-- A colon before a value. It ends the key that has started before, and marks where that
started. -/
def readValue? (s : Scanner) : Option Scanner := do
  let stale : Option Scanner := do
    if s.depth = 0 && !s.keyAllowed then none
    let s ← s.roll? s.cursor.column .blockMappingStart none
    return { s with keyAllowed := s.depth == 0 }.take 1 .value
  match s.keys with
  | some k :: keys =>
    if k.isOpen s.cursor then
      let n := k.number - s.taken
      let s := { s with
        waiting := s.waiting.take n ++ Token.key :: s.waiting.drop n
        keys := none :: keys
        keyAllowed := false }
      return (← s.roll? k.column .blockMappingStart (some k.number)).take 1 .value
    else if k.required then none
    else stale
  | _ => stale

def readProperty? (s : Scanner) (read : Cursor → Option (Token × Cursor)) : Option Scanner := do
  let s ← s.startKey?
  let (t, cursor) ← read s.cursor
  return { s with cursor, keyAllowed := false }.push t

def readBlockText? (s : Scanner) (literal : Bool) : Option Scanner := do
  let s ← s.dropKey?
  let (chars, cursor) ← readBlock? literal s.indent s.cursor.skip
  return { s with cursor, keyAllowed := true }.push (.text false chars)

/-- Words without quotes. If a line ends after them, a key may start. -/
def readPlain? (s : Scanner) : Option Scanner := do
  let s ← s.startKey?
  let (chars, keyAllowed, cursor) ←
    readWords? (0 < s.depth) (s.indent + 1) (s.cursor.rest.length + 1) .none s.cursor
  return { s with cursor, keyAllowed }.push (.text true chars)

def readQuotedToken? (single : Bool) (c : Cursor) : Option (Token × Cursor) :=
  (readQuoted? single (c.rest.length + 1) c.skip).map fun (chars, c) => (.text false chars, c)

def isIndicator (c : Char) : Bool := "-?:,[]\x7b\x7d#&*!|>'\"%@`".toList.contains c

def startsPlain (inFlow : Bool) : List Char → Bool
  | [] => false
  | c :: cs =>
    !(isSpace c || isIndicator c) || (c == '-' && !cs.head?.any isBlank) ||
      (!inFlow && (c == '?' || c == ':') && !atGap cs)

def readToken? (s : Scanner) (c : Char) (cs : List Char) : Option Scanner :=
  let inFlow := 0 < s.depth
  match c with
  | '[' => s.readOpening? .flowSequenceStart
  | '\x7b' => s.readOpening? .flowMappingStart
  | ']' => s.readClosing? .flowSequenceEnd
  | '\x7d' => s.readClosing? .flowMappingEnd
  | ',' => s.readFlowEntry?
  | '*' => s.readProperty? fun c => (readAnchor? c.skip).map fun (name, c) => (.alias name, c)
  | '&' => s.readProperty? fun c => (readAnchor? c.skip).map fun (name, c) => (.anchor name, c)
  | '!' => s.readProperty? readTag?
  | '\'' => s.readProperty? (readQuotedToken? true)
  | '"' => s.readProperty? (readQuotedToken? false)
  | _ =>
    if c = '-' && atGap cs then s.readBlockEntry?
    else if c = '?' && (inFlow || atGap cs) then s.readKey?
    else if c = ':' && (inFlow || atGap cs) then s.readValue?
    else if (c = '|' || c = '>') && !inFlow then s.readBlockText? (c == '|')
    else if startsPlain inFlow (c :: cs) then s.readPlain?
    else none

def read? (s : Scanner) : Option Scanner :=
  let (keyAllowed, cursor) :=
    skipSpace (0 < s.depth) (s.cursor.rest.length + 1) s.keyAllowed s.cursor
  let s := { s with keyAllowed, cursor }.unroll cursor.column
  match cursor.rest with
  | [] => s.readEnd?
  | c :: cs =>
    if cursor.column = 0 && c = '%' then s.readDirectiveToken?
    else if cursor.atMark '-' then s.readMark? .documentStart
    else if cursor.atMark '.' then s.readMark? .documentEnd
    else do
      let s ← s.readToken? c cs
      return if s.waiting.getLast? = some .blockEntry then s else s.skipLineComment

/-- The first token that waits may turn out to be a key; the result is nothing if it is no key but
had to be one. -/
def mayBeKey? (s : Scanner) : Option Bool :=
  match s.keys.reduceOption.find? (·.number == s.taken) with
  | some k => if k.isOpen s.cursor then some true else if k.required then none else some false
  | none => some false

/-- Reads on until the first token is certain. The first argument bounds the number of tokens. -/
def settle? : Nat → Scanner → Option Scanner
  | 0, _ => none
  | bound + 1, s => do
    if s.waiting.length < 3 || (← s.mayBeKey?) then settle? bound (← s.read?)
    else return s

def peek? (s : Scanner) : Option (Token × Scanner) := do
  let s ← settle? (s.cursor.rest.length + 8) s
  return (← s.waiting.head?, s)

def drop (s : Scanner) : Scanner := { s with waiting := s.waiting.tail, taken := s.taken + 1 }

end Scanner

end PascalCheck.Yaml
