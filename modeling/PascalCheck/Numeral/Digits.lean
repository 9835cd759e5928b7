
namespace PascalCheck.Numeral

/-- Why a text is not the numeral asked for. -/
inductive Failure where
  | malformed
  | outOfRange
deriving DecidableEq, Repr

def splitSign : List Char → Bool × List Char
  | '-' :: cs => (true, cs)
  | '+' :: cs => (false, cs)
  | cs => (false, cs)

/-- The value of a digit; letters of either case continue after nine. -/
def digit? (c : Char) : Option Nat :=
  if c.isDigit then some (c.toNat - '0'.toNat)
  else if c.isLower then some (c.toNat - 'a'.toNat + 10)
  else if c.isUpper then some (c.toNat - 'A'.toNat + 10)
  else none

def digitOf? (base : Nat) (c : Char) : Option Nat :=
  (digit? c).filter (· < base)

def isBaseMark (c : Char) : Bool := "bBoOxX".toList.contains c

/-- What the separator rule remembers of the character before. -/
inductive Before where
  | digit
  | separator
  | other
deriving DecidableEq, Repr

def separatorsFitAfter (hexadecimal : Bool) : Before → List Char → Bool
  | b, [] => b != .separator
  | b, c :: cs =>
    if c.isDigit || (hexadecimal && (digitOf? 16 c).isSome) then
      separatorsFitAfter hexadecimal .digit cs
    else if c == '_' then
      b == .digit && separatorsFitAfter hexadecimal .separator cs
    else
      b != .separator && separatorsFitAfter hexadecimal .other cs

/-- The separators of a numeral stand between digits, where a base mark counts as a digit. -/
def separatorsFit (text : List Char) : Bool :=
  match (splitSign text).2 with
  | '0' :: m :: cs =>
    if isBaseMark m then separatorsFitAfter (m == 'x' || m == 'X') .digit cs
    else separatorsFitAfter false .other ('0' :: m :: cs)
  | cs => separatorsFitAfter false .other cs

end PascalCheck.Numeral
