import PascalCheck.Text.Character

namespace PascalCheck.Toml

open Text (charOfHex? isBlank)

/-- The character ends a line. A carriage return does so together with what follows it. -/
def isLineEnd (c : Char) : Bool := c == '\n' || c == '\r'

def isSpace (c : Char) : Bool := isBlank c || isLineEnd c

/-- A text of the format: no control characters but tabs and ends of lines. -/
def isWellFormed : List Char → Bool
  | [] => true
  | c :: cs =>
    (c == '\t' || c == '\n' || (c == '\r' && cs.head? == some '\n') ||
      (0x20 ≤ c.toNat && c.toNat != 0x7F)) && isWellFormed cs

def escape? : Char → Option Char
  | 'b' => some '\x08'
  | 't' => some '\t'
  | 'n' => some '\n'
  | 'f' => some '\x0c'
  | 'r' => some '\r'
  | '"' => some '"'
  | '\\' => some '\\'
  | _ => none

def escaped? : List Char → Option (Char × List Char)
  | 'u' :: a :: b :: c :: d :: cs => (charOfHex? [a, b, c, d]).map (·, cs)
  | 'U' :: a :: b :: c :: d :: e :: f :: g :: h :: cs =>
    (charOfHex? [a, b, c, d, e, f, g, h]).map (·, cs)
  | c :: cs => (escape? c).map (·, cs)
  | [] => none

theorem length_escaped?_lt {cs : List Char} {r : Char × List Char} (h : escaped? cs = some r) :
    r.2.length < cs.length := by
  unfold escaped? at h
  split at h
  all_goals simp only [Option.map_eq_some_iff, reduceCtorEq] at h
  all_goals obtain ⟨x, _, rfl⟩ := h
  all_goals simp only [List.length_cons]
  all_goals omega

def basicText? : List Char → Option (List Char × List Char)
  | [] => none
  | c :: cs =>
    if c = '"' then some ([], cs)
    else if c = '\\' then
      match _h : escaped? cs with
      | none => none
      | some (x, rest) => (basicText? rest).map fun (s, rest) => (x :: s, rest)
    else if isLineEnd c then none
    else (basicText? cs).map fun (s, rest) => (c :: s, rest)
termination_by cs => cs.length
decreasing_by
  · have := length_escaped?_lt _h
    simp only [List.length_cons] at this ⊢
    omega
  · simp

def literalText? : List Char → Option (List Char × List Char)
  | [] => none
  | c :: cs =>
    if c = '\'' then some ([], cs)
    else if isLineEnd c then none
    else (literalText? cs).map fun (s, rest) => (c :: s, rest)

/-- The characters up to three quotes, as they are written, and what follows these. The first
argument holds the characters before, last one first. Up to two quotes more belong to the text; a
third is refused unless the text before it ends in a backslash. In a text with escapes a backslash
keeps the character after it from closing. -/
def untilThree? (quote : Char) (escapes : Bool) :
    List Char → List Char → Option (List Char × List Char)
  | _, [] => none
  | before, c :: cs =>
    if c = quote && [quote, quote].isPrefixOf cs then
      if (cs.drop 2).head? = some quote then
        if [quote, quote].isPrefixOf before && !(escapes && (before.drop 2).head? = some '\\') then
          none
        else (untilThree? quote escapes (c :: before) cs)
      else some (before.reverse, cs.drop 2)
    else if escapes && c = '\\' then
      match cs with
      | [] => none
      | c' :: cs => untilThree? quote escapes (c' :: c :: before) cs
    else untilThree? quote escapes (c :: before) cs

def withoutFirstLineEnd : List Char → List Char
  | '\n' :: cs => cs
  | '\r' :: '\n' :: cs => cs
  | cs => cs

/-- The characters of a text of several lines. A backslash at the end of a line takes the space
up to the next word away. -/
def unescape? : List Char → Option (List Char)
  | [] => some []
  | c :: cs =>
    if c = '\\' then
      if (cs.takeWhile isSpace).contains '\n' then unescape? (cs.dropWhile isSpace)
      else
        match _h : escaped? cs with
        | none => none
        | some (x, rest) => (unescape? rest).map (x :: ·)
    else (unescape? cs).map (c :: ·)
termination_by cs => cs.length
decreasing_by
  · exact Nat.lt_succ_of_le (List.dropWhile_sublist _).length_le
  · have := length_escaped?_lt _h
    simp only [List.length_cons] at this ⊢
    omega
  · simp

def quotedLine? : List Char → Option (String × List Char)
  | '"' :: cs => (basicText? cs).map fun (s, rest) => (String.ofList s, rest)
  | '\'' :: cs => (literalText? cs).map fun (s, rest) => (String.ofList s, rest)
  | _ => none

def quoted? : List Char → Option (String × List Char)
  | '"' :: '"' :: '"' :: cs => do
    let (written, rest) ← untilThree? '"' true [] cs
    let s ← unescape? (withoutFirstLineEnd written)
    return (String.ofList s, rest)
  | '\'' :: '\'' :: '\'' :: cs => do
    let (written, rest) ← untilThree? '\'' false [] cs
    return (String.ofList (withoutFirstLineEnd written), rest)
  | cs => quotedLine? cs

end PascalCheck.Toml
