import PascalCheck.Yaml.Cursor

namespace PascalCheck.Yaml

open Text (isBlank isLineBreak charOfHex?)

/-- The gap between two parts of a text: the blanks, if no line ends in it, else the first line
break and those after it. -/
structure Gap where
  blanks : List Char
  first : List Char
  more : List Char
  broken : Bool
deriving DecidableEq, Repr

namespace Gap

def none : Gap := ⟨[], [], [], false⟩

def joined : Gap := ⟨[], [], [], true⟩

/-- How the gap reads: one line feed is a blank, and of more the first does not count. -/
def text (g : Gap) : List Char :=
  if !g.broken then g.blanks
  else if g.first.head? = some '\n' then if g.more.isEmpty then [' '] else g.more
  else g.first ++ g.more

def addBlank (g : Gap) (c : Char) : Gap :=
  if g.broken then g else { g with blanks := g.blanks ++ [c] }

def addBreak (g : Gap) (text : List Char) : Gap :=
  if g.broken then { g with more := g.more ++ text } else ⟨[], text, [], true⟩

end Gap

/-- Reads on over a gap. In a word no tab may stand where the indentation is expected, which
the first argument gives. The second bounds the number of steps. -/
def readGap? (indent : Option Int) : Nat → Gap → Cursor → Option (Gap × Cursor)
  | 0, g, c => some (g, c)
  | bound + 1, g, c =>
    match c.peek? with
    | none => some (g, c)
    | some x =>
      if isBlank x then
        if x == '\t' && g.broken && indent.any (fun i => (c.column : Int) < i) then none
        else readGap? indent bound (g.addBlank x) c.skip
      else if isLineBreak x then
        let (text, c) := c.readBreak
        readGap? indent bound (g.addBreak text) c
      else some (g, c)

def isFlowIndicator (c : Char) : Bool := ",?[]\x7b\x7d".toList.contains c

def endsWord (inFlow : Bool) : List Char → Bool
  | [] => true
  | c :: cs =>
    isSpace c || (c == ':' && atGap cs) || (inFlow && isFlowIndicator c)

def readRun (inFlow : Bool) : Nat → Cursor → List Char × Cursor
  | 0, c => ([], c)
  | bound + 1, c =>
    match c.rest with
    | [] => ([], c)
    | x :: _ =>
      if endsWord inFlow c.rest then ([], c)
      else
        let (run, c) := readRun inFlow bound c.skip
        (x :: run, c)

/-- Words with gaps between them, on lines that are indented far enough. The flag of the result
says that a line has ended after the last word. -/
def readWords? (inFlow : Bool) (indent : Int) :
    Nat → Gap → Cursor → Option (List Char × Bool × Cursor)
  | 0, _, _ => none
  | bound + 1, g, c =>
    if c.atDocumentMark || c.peek? = some '#' then some ([], g.broken, c)
    else do
      let (run, next) := readRun inFlow c.rest.length c
      let start := if run.isEmpty then [] else g.text ++ run
      let g := if run.isEmpty then g else Gap.none
      if next.rest.isEmpty || !atGap next.rest then return (start, g.broken, next)
      let (g, next) ← readGap? (some indent) next.rest.length g next
      if !inFlow && next.column < indent then return (start, g.broken, next)
      let (more, broken, next) ← readWords? inFlow indent bound g next
      return (start ++ more, broken, next)

def escape? : Char → Option Char
  | '0' => some '\x00'
  | 'a' => some '\x07'
  | 'b' => some '\x08'
  | 't' | '\t' => some '\t'
  | 'n' => some '\n'
  | 'v' => some '\x0b'
  | 'f' => some '\x0c'
  | 'r' => some '\r'
  | 'e' => some '\x1b'
  | ' ' => some ' '
  | '"' => some '"'
  | '\'' => some '\''
  | '\\' => some '\\'
  | 'N' => some '\x85'
  | '_' => some '\xa0'
  | 'L' => some '\u2028'
  | 'P' => some '\u2029'
  | _ => none

def escapeDigits? : Char → Option Nat
  | 'x' => some 2
  | 'u' => some 4
  | 'U' => some 8
  | _ => none

def escaped? : List Char → Option (Char × Nat)
  | [] => none
  | c :: cs =>
    match escapeDigits? c with
    | some n =>
      if (cs.take n).length = n then (charOfHex? (cs.take n)).map (·, n + 1) else none
    | none => (escape? c).map (·, 1)

/-- What ends a run of characters between quotes. -/
inductive RunStop where
  | quote
  | gap
  | joinedLine
deriving DecidableEq, Repr

def readQuotedRun? (single : Bool) : Nat → Cursor → Option (List Char × RunStop × Cursor)
  | 0, _ => none
  | bound + 1, c =>
    match c.rest with
    | [] => some ([], .gap, c)
    | x :: cs =>
      if isSpace x then some ([], .gap, c)
      else if single && x == '\'' then
        if cs.head? = some '\'' then do
          let (run, stop, c) ← readQuotedRun? single bound (c.skipMany 2)
          return ('\'' :: run, stop, c)
        else some ([], .quote, c)
      else if !single && x == '"' then some ([], .quote, c)
      else if !single && x == '\\' then
        if cs.head?.any isLineBreak then some ([], .joinedLine, c.skip.skipBreak)
        else do
          let (y, width) ← escaped? cs
          let (run, stop, c) ← readQuotedRun? single bound (c.skipMany (width + 1))
          return (y :: run, stop, c)
      else do
        let (run, stop, c) ← readQuotedRun? single bound c.skip
        return (x :: run, stop, c)

def readQuoted? (single : Bool) : Nat → Cursor → Option (List Char × Cursor)
  | 0, _ => none
  | bound + 1, c => do
    if c.atDocumentMark || c.rest.isEmpty then none
    let (run, stop, c) ← readQuotedRun? single (c.rest.length + 1) c
    if c.peek? = some (if single then '\'' else '"') then return (run, c.skip)
    let start := if stop = .joinedLine then Gap.joined else Gap.none
    let (g, c) ← readGap? none c.rest.length start c
    let (more, c) ← readQuoted? single bound c
    return (run ++ g.text ++ more, c)

/-- What becomes of the line breaks at the end of a block: all go, the first stays, all stay. -/
inductive Chomping where
  | strip
  | clip
  | keep
deriving DecidableEq, Repr

def Chomping.ofChar? : Char → Option Chomping
  | '-' => some .strip
  | '+' => some .keep
  | _ => none

/-- The head of a block after its mark: how to chomp, how far to indent, if that is said, and the
place after. -/
def readBlockHead? (c : Cursor) : Option (Chomping × Option Nat × Cursor) :=
  let sign (c : Cursor) : Option Chomping × Cursor :=
    match c.peek?.bind Chomping.ofChar? with
    | some chomping => (some chomping, c.skip)
    | none => (none, c)
  let digit (c : Cursor) : Option (Option Nat × Cursor) :=
    match c.peek? with
    | some d =>
      if d == '0' then none
      else if d.isDigit then some (some (d.toNat - '0'.toNat), c.skip)
      else some (none, c)
    | none => some (none, c)
  match sign c with
  | (some chomping, c) => (digit c).map fun (n, c) => (chomping, n, c)
  | (none, c) => do
    let (n, c) ← digit c
    match n with
    | none => return (.clip, none, c)
    | some n =>
      let (chomping, c) := sign c
      return (chomping.getD .clip, some n, c)

def readHeadEnd? (c : Cursor) : Option Cursor :=
  let c := c.skipWhile isBlank
  let c := if c.peek? = some '#' then c.skipLine else c
  if atLineEnd c.rest then some c.skipBreak else none

/-- Blank lines and the indentation after them: the line breaks, the widest indentation seen, and
the place after. If the indentation is known, no more than that is taken. No tab stands in it. -/
def readIndentation? (indent : Option Nat) :
    Nat → Nat → Cursor → Option (List Char × Nat × Cursor)
  | 0, _, _ => none
  | bound + 1, widest, c =>
    let blanks := (c.rest.takeWhile (· == ' ')).length
    let c := c.skipMany (match indent with
      | none => blanks
      | some n => min blanks (n - c.column))
    let widest := max widest c.column
    if c.peek? = some '\t' && indent.all (c.column < ·) then none
    else if c.atBreak then do
      let (text, c) := c.readBreak
      let (breaks, widest, c) ← readIndentation? indent bound widest c
      return (text ++ breaks, widest, c)
    else some ([], widest, c)

/-- The lines of a block with an indentation. The line break before a line reads as a blank in a
folded block, unless one of the two lines starts with a blank or blank lines stand between. -/
def readLines? (literal : Bool) (chomping : Chomping) (indent : Nat) :
    Nat → Bool → List Char → List Char → Cursor → Option (List Char × Cursor)
  | 0, _, _, _, _ => none
  | bound + 1, afterBlank, first, more, c =>
    if c.column == indent && !c.rest.isEmpty then do
      let startsBlank := c.peek?.any isBlank
      let isFolded := !literal && !afterBlank && !startsBlank && first.head? = some '\n'
      let gap := if !isFolded then first else if more.isEmpty then [' '] else []
      let line := c.rest.takeWhile fun x => !isLineBreak x
      let (first, c) := c.skipLine.readBreak
      let (breaks, _, c) ← readIndentation? (some indent) (c.rest.length + 1) 0 c
      let (text, c) ← readLines? literal chomping indent bound startsBlank first breaks c
      return (gap ++ more ++ line ++ text, c)
    else
      match chomping with
      | .strip => some ([], c)
      | .clip => some (first, c)
      | .keep => some (first ++ more, c)

def readBlock? (literal : Bool) (parent : Int) (c : Cursor) : Option (List Char × Cursor) := do
  let (chomping, increment, c) ← readBlockHead? c
  let c ← readHeadEnd? c
  let known := increment.map fun n => if 0 ≤ parent then parent.toNat + n else n
  let (breaks, widest, c) ← readIndentation? known (c.rest.length + 1) 0 c
  let indent := known.getD (max widest (max (parent + 1).toNat 1))
  readLines? literal chomping indent (c.rest.length + 1) false [] breaks c

end PascalCheck.Yaml
