import PascalCheck.Yaml.Text

namespace PascalCheck.Yaml

open Text (isBlank isLineBreak)

/-- A token. The start and the end of a block come from its indentation. -/
inductive Token where
  | streamEnd
  | version (major minor : Nat)
  | tagHandle (handle uri : List Char)
  | documentStart
  | documentEnd
  | blockSequenceStart
  | blockMappingStart
  | blockEnd
  | flowSequenceStart
  | flowSequenceEnd
  | flowMappingStart
  | flowMappingEnd
  | blockEntry
  | flowEntry
  | key
  | value
  | alias (name : List Char)
  | anchor (name : List Char)
  | tag (handle suffix : List Char)
  | text (plain : Bool) (chars : List Char)
deriving DecidableEq, Repr

def isNameChar (c : Char) : Bool := c.isAlphanum || c == '_' || c == '-'

def readAnchor? (c : Cursor) : Option (List Char × Cursor) :=
  let name := c.rest.takeWhile isNameChar
  let c := c.skipMany name.length
  if !name.isEmpty && (atGap c.rest || c.peek?.any ("?:,]\x7d%@`".toList.contains ·)) then
    some (name, c)
  else none

def isUriChar (c : Char) : Bool := isNameChar c || ";/?:@&=+$,.!~*'()[]".toList.contains c

def octetsOf? (n : Nat) : Option Nat :=
  if n < 0x80 then some 1
  else if 0xC0 ≤ n && n < 0xE0 then some 2
  else if 0xE0 ≤ n && n < 0xF0 then some 3
  else if 0xF0 ≤ n && n < 0xF8 then some 4
  else none

def octet? : List Char → Option Nat
  | '%' :: a :: b :: _ => (Text.charOfHex? [a, b]).map Char.toNat
  | _ => none

def readOctets? : Nat → Cursor → Option (List Char × Cursor)
  | 0, c => some ([], c)
  | n + 1, c => do
    let octet ← octet? c.rest
    if octet < 0x80 || 0xC0 ≤ octet then none
    let (more, c) ← readOctets? n (c.skipMany 3)
    return (Char.ofNat octet :: more, c)

def readUri? : Nat → Cursor → Option (List Char × Cursor)
  | 0, c => some ([], c)
  | bound + 1, c =>
    match c.peek? with
    | none => some ([], c)
    | some x =>
      if x == '%' then do
        let octet ← octet? c.rest
        let (more, c) ← readOctets? ((← octetsOf? octet) - 1) (c.skipMany 3)
        let (rest, c) ← readUri? bound c
        return (Char.ofNat octet :: more ++ rest, c)
      else if isUriChar x then do
        let (rest, c) ← readUri? bound c.skip
        return (x :: rest, c)
      else some ([], c)

/-- A handle from the place of its mark: names with a mark at both ends, or with one in front. -/
def readHandle (c : Cursor) : List Char × Cursor :=
  let name := (c.rest.drop 1).takeWhile isNameChar
  let c := c.skipMany (name.length + 1)
  if c.peek? = some '!' then ('!' :: name ++ ['!'], c.skip) else ('!' :: name, c)

def readTag? (c : Cursor) : Option (Token × Cursor) := do
  let (token, c) ←
    if (c.rest.drop 1).head? = some '<' then do
      let (uri, c) ← readUri? c.rest.length (c.skipMany 2)
      if uri.isEmpty || c.peek? != some '>' then none
      some (Token.tag [] uri, c.skip)
    else do
      let (handle, c) := readHandle c
      let (uri, c) ← readUri? c.rest.length c
      if 1 < handle.length && handle.getLast? = some '!' then
        if uri.isEmpty then none
        some (.tag handle uri, c)
      else
        let suffix := handle.drop 1 ++ uri
        some (if suffix.isEmpty then .tag [] ['!'] else .tag ['!'] suffix, c)
  if atGap c.rest then some (token, c) else none

def readVersionNumber? (c : Cursor) : Option (Nat × Cursor) :=
  let digits := c.rest.takeWhile Char.isDigit
  if digits.isEmpty || 2 < digits.length then none
  else some (digits.foldl (fun n d => n * 10 + (d.toNat - '0'.toNat)) 0, c.skipMany digits.length)

def readVersion? (c : Cursor) : Option (Token × Cursor) := do
  let (major, c) ← readVersionNumber? (c.skipWhile isBlank)
  if c.peek? != some '.' then none
  let (minor, c) ← readVersionNumber? c.skip
  return (.version major minor, c)

def readTagHandle? (c : Cursor) : Option (Token × Cursor) := do
  let c := c.skipWhile isBlank
  if c.peek? != some '!' then none
  let (handle, c) := readHandle c
  if handle != ['!'] && handle.getLast? != some '!' then none
  if !c.peek?.any isBlank then none
  let (uri, c) ← readUri? c.rest.length (c.skipWhile isBlank)
  if uri.isEmpty || !atGap c.rest then none
  return (.tagHandle handle uri, c)

def readDirective? (c : Cursor) : Option (Token × Cursor) := do
  let name := c.rest.takeWhile isNameChar
  let c := c.skipMany name.length
  if !atGap c.rest then none
  let (token, c) ←
    if name = "YAML".toList then readVersion? c
    else if name = "TAG".toList then readTagHandle? c
    else none
  return (token, ← readHeadEnd? c)

end PascalCheck.Yaml
