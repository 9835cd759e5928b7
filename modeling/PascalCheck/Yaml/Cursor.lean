import PascalCheck.Text.Character

namespace PascalCheck.Yaml

open Text (isBlank isLineBreak)

/-- A place in a text. The flag `fresh` says that a line has ended and only blanks have been passed
since. -/
structure Cursor where
  rest : List Char
  index : Nat
  line : Nat
  column : Nat
  fresh : Bool
deriving DecidableEq, Repr

def isSpace (c : Char) : Bool := isBlank c || isLineBreak c

def atGap (cs : List Char) : Bool := cs.head?.all isSpace

def atLineEnd (cs : List Char) : Bool := cs.head?.all isLineBreak

/-- The characters of the line break in front, and how it reads: as a line feed, unless it
separates lines or paragraphs. -/
def splitBreak : List Char → List Char × List Char
  | '\r' :: '\n' :: cs => (['\n'], cs)
  | c :: cs =>
    if !isLineBreak c then ([], c :: cs)
    else if c.toNat = 0x2028 || c.toNat = 0x2029 then ([c], cs)
    else (['\n'], cs)
  | [] => ([], [])

namespace Cursor

def ofChars (cs : List Char) : Cursor := ⟨cs, 0, 0, 0, false⟩

def peek? (c : Cursor) : Option Char := c.rest.head?

def skip (c : Cursor) : Cursor :=
  match c.rest with
  | [] => c
  | x :: cs => ⟨cs, c.index + 1, c.line, c.column + 1, c.fresh && isBlank x⟩

def skipMany : Nat → Cursor → Cursor
  | 0, c => c
  | n + 1, c => skipMany n c.skip

def skipWhile (p : Char → Bool) (c : Cursor) : Cursor :=
  c.skipMany (c.rest.takeWhile p).length

def skipLine (c : Cursor) : Cursor := c.skipWhile fun x => !isLineBreak x

def readBreak (c : Cursor) : List Char × Cursor :=
  let (text, rest) := splitBreak c.rest
  if text.isEmpty then ([], c)
  else (text, ⟨rest, c.index + (c.rest.length - rest.length), c.line + 1, 0, true⟩)

def skipBreak (c : Cursor) : Cursor := c.readBreak.2

def atBreak (c : Cursor) : Bool := c.rest.head?.any isLineBreak

/-- The place with a given index, over blanks and line breaks. The first argument bounds the
number of steps. -/
def advanceTo (index : Nat) : Nat → Cursor → Cursor
  | 0, c => c
  | bound + 1, c =>
    if index ≤ c.index then c
    else advanceTo index bound (if c.atBreak then c.skipBreak else c.skip)

/-- Three equal characters at the start of a line, with a gap after them, mark where a document
starts or ends. -/
def atMark (mark : Char) (c : Cursor) : Bool :=
  c.column == 0 && [mark, mark, mark].isPrefixOf c.rest && atGap (c.rest.drop 3)

def atDocumentMark (c : Cursor) : Bool := c.atMark '-' || c.atMark '.'

end Cursor

end PascalCheck.Yaml
