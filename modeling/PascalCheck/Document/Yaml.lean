import PascalCheck.Document.Basic
import PascalCheck.Document.PlainScalar
import PascalCheck.Text.Character
import PascalCheck.Text.Quoted

namespace PascalCheck.Document

/-- Older readers take these words for truth values. -/
def isOldBool (s : String) : Bool :=
  ["y", "Y", "yes", "Yes", "YES", "on", "On", "ON",
    "n", "N", "no", "No", "NO", "off", "Off", "OFF"].contains s

def isMistakable (s : String) : Bool := PlainScalar.ofString s != .text || isOldBool s

def isYamlPrintable (c : Char) : Bool :=
  let n := c.toNat
  n == 0x0A || (0x20 ≤ n && n ≤ 0x7E) || (0xA0 ≤ n && n ≤ 0xD7FF) ||
    (0xE000 ≤ n && n ≤ 0xFFFD && n != 0xFEFF)

def needsEscape (c : Char) : Bool := c == '\t' || !isYamlPrintable c

def yamlChar (c : Char) : String :=
  match c.toNat with
  | 0x00 => "\\0"
  | 0x07 => "\\a"
  | 0x08 => "\\b"
  | 0x09 => "\\t"
  | 0x0A => "\\n"
  | 0x0B => "\\v"
  | 0x0C => "\\f"
  | 0x0D => "\\r"
  | 0x1B => "\\e"
  | 0x22 => "\\\""
  | 0x5C => "\\\\"
  | 0x85 => "\\N"
  | 0xA0 => if isYamlPrintable c then c.toString else "\\_"
  | 0x2028 => "\\L"
  | 0x2029 => "\\P"
  | n =>
    if isYamlPrintable c then c.toString
    else if n ≤ 0xFF then "\\x" ++ (Text.hex 2 n).toUpper
    else if n ≤ 0xFFFF then "\\u" ++ (Text.hex 4 n).toUpper
    else "\\U" ++ (Text.hex 8 n).toUpper

def doubleQuoted (s : String) : String := "\"" ++ String.join (s.toList.map yamlChar) ++ "\""

/-- Characters between single quotes; what follows a line break is indented. -/
def singleQuotedChars (indent : Nat) : Bool → List Char → String
  | _, [] => ""
  | broken, c :: cs =>
    if Text.isLineBreak c then c.toString ++ singleQuotedChars indent true cs
    else if c == ' ' then " " ++ singleQuotedChars indent broken cs
    else
      (if broken then blanks indent else "") ++ (if c == '\'' then "''" else c.toString) ++
        singleQuotedChars indent false cs

def singleQuoted (indent : Nat) (s : String) : String :=
  "'" ++ singleQuotedChars indent false s.toList ++ "'"

def isIndicator (c : Char) : Bool := "#,[]\x7b\x7d&*!|>'\"%@`".toList.contains c

def blankFollows (cs : List Char) : Bool := cs.head?.all (· == ' ')

def startsLikeMark : List Char → Bool
  | [] => true
  | c :: cs =>
    isIndicator c || (c == '-' || c == '?' || c == ':') && blankFollows cs ||
      "---".toList.isPrefixOf (c :: cs) || "...".toList.isPrefixOf (c :: cs)

def holdsMark : List Char → Bool
  | [] => false
  | c :: cs =>
    (c == ':' && blankFollows cs) || (c == ' ' && cs.head? == some '#') || holdsMark cs

def isPlain (s : String) : Bool :=
  let cs := s.toList
  !(startsLikeMark cs || holdsMark cs || cs.head? == some ' ' || cs.getLast? == some ' ' ||
    cs.any Text.isLineBreak)

/-- Somewhere a line ends next to a blank, which single quotes would lose. -/
def breaksAtBlank : List Char → Bool
  | a :: b :: cs =>
    (a == ' ' && Text.isLineBreak b) || (Text.isLineBreak a && b == ' ') || breaksAtBlank (b :: cs)
  | _ => false

/-- A text with the quotes it needs, in a block indented by so many blanks; its own lines are
indented further. -/
def yamlText (indent : Nat) (s : String) : String :=
  if isMistakable s || s.toList.any needsEscape || breaksAtBlank s.toList then doubleQuoted s
  else if isPlain s then s
  else singleQuoted (indent + 2) s

/-- A document on one line, if it is no list or record with anything in it. -/
def yamlInline? (indent : Nat) : Document → Option String
  | .null => some "null"
  | .text s => some (yamlText indent s)
  | .int n => some (toString n)
  | .bool b => some (if b then "true" else "false")
  | .list [] => some "[]"
  | .record [] => some "\x7b\x7d"
  | _ => none

mutual

def yamlLines (indent : Nat) : Document → List String
  | .list (d :: ds) => yamlItems indent (d :: ds)
  | .record (f :: fs) => yamlFields indent (f :: fs)
  | d => (yamlInline? indent d).toList

def yamlItems (indent : Nat) : List Document → List String
  | [] => []
  | d :: ds =>
    (match yamlLines (indent + 2) d with
      | [] => []
      | first :: rest => ("- " ++ first) :: rest.map ("  " ++ ·)) ++ yamlItems indent ds

def yamlFields (indent : Nat) : List (String × Document) → List String
  | [] => []
  | (name, d) :: fs =>
    (match yamlInline? indent d with
      | some line => [yamlText indent name ++ ": " ++ line]
      | none =>
        (yamlText indent name ++ ":") :: (yamlLines (indent + 2) d).map ("  " ++ ·)) ++
      yamlFields indent fs

end

def toYaml (d : Document) : String := String.join ((yamlLines 0 d).map (· ++ "\n"))

end PascalCheck.Document
