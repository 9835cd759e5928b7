import PascalCheck.Numeral.Digits

namespace PascalCheck.Numeral

/-- Reads digits of a base onto a value already read, with or without separators. -/
def accumulate (base : Nat) (separators : Bool) : Nat → List Char → Except Failure Nat
  | n, [] => .ok n
  | n, c :: cs =>
    if separators && c == '_' then accumulate base separators n cs
    else
      match digitOf? base c with
      | none => .error .malformed
      | some d =>
        if n * base + d < Nat.pow 2 64 then accumulate base separators (n * base + d) cs
        else .error .outOfRange

def signed (negative : Bool) (n : Nat) : Except Failure Int :=
  if negative then
    if n ≤ Nat.pow 2 63 then .ok (-n) else .error .outOfRange
  else
    if n < Nat.pow 2 63 then .ok n else .error .outOfRange

def parseBase (base : Nat) (text : List Char) : Except Failure Int :=
  match splitSign text with
  | (_, []) => .error .malformed
  | (negative, cs) => do signed negative (← accumulate base false 0 cs)

def parseDecimal (text : String) : Except Failure Int := parseBase 10 text.toList

def splitBase : List Char → Nat × List Char
  | '0' :: m :: c :: cs =>
    if m == 'b' || m == 'B' then (2, c :: cs)
    else if m == 'o' || m == 'O' then (8, c :: cs)
    else if m == 'x' || m == 'X' then (16, c :: cs)
    else (8, m :: c :: cs)
  | '0' :: cs => (8, cs)
  | cs => (10, cs)

/-- The magnitude of a numeral that may announce its base and separate its digits. -/
def magnitude (cs : List Char) : Except Failure Nat :=
  match cs with
  | [] => .error .malformed
  | _ => do
    let (base, digits) := splitBase cs
    let n ← accumulate base true 0 digits
    if cs.contains '_' && !separatorsFit cs then .error .malformed else .ok n

/-- The integer a text stands for when it may announce its base and separate its digits. -/
def parseInteger (text : String) : Except Failure Int :=
  let (negative, cs) := splitSign text.toList
  do signed negative (← magnitude cs)

end PascalCheck.Numeral
