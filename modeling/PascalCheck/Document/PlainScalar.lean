import PascalCheck.Numeral.Integer
import PascalCheck.Numeral.Real

namespace PascalCheck.Document

/-- The meaning of a word without quotes. -/
inductive PlainScalar where
  | null
  | bool (b : Bool)
  | int (n : Int)
  | infinity (negative : Bool)
  | notANumber
  | real (negative : Bool) (x : Numeral.Scientific)
  | text
deriving DecidableEq, Repr

namespace PlainScalar

def ofWord? (s : String) : Option PlainScalar :=
  if ["", "~", "null", "Null", "NULL"].contains s then some .null
  else if ["true", "True", "TRUE"].contains s then some (.bool true)
  else if ["false", "False", "FALSE"].contains s then some (.bool false)
  else if [".nan", ".NaN", ".NAN"].contains s then some .notANumber
  else if [".inf", ".Inf", ".INF", "+.inf", "+.Inf", "+.INF"].contains s then
    some (.infinity false)
  else if ["-.inf", "-.Inf", "-.INF"].contains s then some (.infinity true)
  else none

def isExponentPart : List Char → Bool
  | [] => true
  | c :: cs =>
    (c == 'e' || c == 'E') &&
      (match (Numeral.splitSign cs).2 with
      | [] => false
      | ds => ds.all Char.isDigit)

/-- Digits around an optional point, at least one of them, and an optional exponent. A point in
front needs a digit after it. -/
def isDecimal (cs : List Char) : Bool :=
  let cs := (Numeral.splitSign cs).2
  let whole := cs.takeWhile Char.isDigit
  match cs.dropWhile Char.isDigit with
  | '.' :: rest =>
    !(whole.isEmpty && (rest.takeWhile Char.isDigit).isEmpty) &&
      isExponentPart (rest.dropWhile Char.isDigit)
  | rest => !whole.isEmpty && isExponentPart rest

def real? (s : String) : Option PlainScalar :=
  if Numeral.classifyReal s = .finite then
    (Numeral.readReal? s.toList).map (.real (Numeral.splitSign s.toList).1)
  else none

/-- A binary or octal integer whose sign may also stand after its mark. -/
def markedInteger? : List Char → Option Int
  | '0' :: 'b' :: cs => (Numeral.parseBase 2 cs).toOption
  | '-' :: '0' :: 'b' :: cs => (Numeral.parseBase 2 ('-' :: cs)).toOption
  | '0' :: 'o' :: cs => (Numeral.parseBase 8 cs).toOption
  | '-' :: '0' :: 'o' :: cs => (Numeral.parseBase 8 ('-' :: cs)).toOption
  | _ => none

def number? (s : String) : Option PlainScalar :=
  let plain := String.ofList (s.toList.filter (· != '_'))
  match Numeral.parseInteger plain, Numeral.magnitude plain.toList with
  | .ok n, _ => some (.int n)
  | _, .ok n => some (.int n)
  | _, _ =>
    if isDecimal plain.toList then real? plain
    else (markedInteger? plain.toList).map .int

def ofString (s : String) : PlainScalar :=
  match ofWord? s, s.toList with
  | some v, _ => v
  | none, '.' :: _ => (real? s).getD .text
  | none, c :: _ =>
    if c.isDigit || c == '+' || c == '-' then (number? s).getD .text else .text
  | none, [] => .null

end PlainScalar

end PascalCheck.Document
