import PascalCheck.Calendar
import PascalCheck.Numeral.Integer
import PascalCheck.Numeral.Real
import PascalCheck.Text.Character

namespace PascalCheck.Toml

/-- A number, or a date or a time. -/
inductive Number where
  | int (n : Int)
  | real
  | moment
deriving DecidableEq, Repr

namespace Number

/-- Every separator has a digit before it, and the last character is a digit. The flag says that
a digit came before. -/
def separatorsFit : Bool → List Char → Bool
  | afterDigit, [] => afterDigit
  | afterDigit, c :: cs => (c != '_' || afterDigit) && separatorsFit (Text.hexDigit? c).isSome cs

def hasNeedlessZero : List Char → Bool
  | '0' :: m :: _ => !(m == 'b' || m == 'o' || m == 'x')
  | s :: '0' :: _ :: _ => s == '-' || s == '+'
  | _ => false

def integer? (cs : List Char) : Option Int :=
  if separatorsFit false cs && !hasNeedlessZero cs then
    (Numeral.parseInteger (String.ofList cs)).toOption
  else none

def parts : List Char → List (List Char)
  | [] => [[]]
  | c :: cs =>
    if c = '.' || c = 'e' || c = 'E' then [] :: parts cs
    else
      match parts cs with
      | [] => [[c]]
      | p :: ps => (c :: p) :: ps

def pointsFit : List Char → Bool
  | [] => true
  | c :: cs => (c != '.' || cs.head?.any Char.isDigit) && pointsFit cs

/-- The characters stand for a real number that is finite as a double. -/
def isReal (cs : List Char) : Bool :=
  let parts := (parts cs).filter (!·.isEmpty)
  parts.all (separatorsFit false) && !parts.head?.any hasNeedlessZero && pointsFit cs &&
    Numeral.classifyReal (String.ofList (cs.filter (· != '_'))) = .finite

def isMoment (cs : List Char) : Bool :=
  let upper := cs.map fun c => if c = 't' || c = ' ' then 'T' else if c = 'z' then 'Z' else c
  let ends (rest : List Char) : Bool :=
    match Calendar.time? false rest with
    | some [] => true
    | some rest => Calendar.offset? rest = some []
    | none => false
  match Calendar.date? false upper with
  | some [] => true
  | some ('T' :: rest) => ends rest
  | some _ => false
  | none => Calendar.time? false upper = some []

def decimal? (cs : List Char) : Option (Number × List Char) :=
  let (sign, body) := if cs.head? = some '+' || cs.head? = some '-' then cs.splitAt 1 else ([], cs)
  let whole := body.takeWhile fun c => c.isDigit || c == '_'
  let rest := body.drop whole.length
  if rest.head?.any fun c => c == '.' || c == 'e' || c == 'E' then
    let tail := rest.takeWhile fun c => c.isDigit || "_.-+eE".toList.contains c
    if isReal (sign ++ whole ++ tail) then some (.real, rest.drop tail.length) else none
  else (integer? (sign ++ whole)).map fun n => (.int n, rest)

def marked? (base : Nat) (mark : Char) (cs : List Char) : Option (Number × List Char) :=
  let isDigit (c : Char) : Bool := (Numeral.digitOf? base c).isSome
  let digits := cs.takeWhile fun c => isDigit c || c == '_'
  if digits.head?.any isDigit then
    (integer? ('0' :: mark :: digits)).map fun n => (.int n, cs.drop digits.length)
  else none

def moment? (cs : List Char) : Option (Number × List Char) :=
  let word := cs.takeWhile fun c => c.isDigit || "-:Tt .Zz+".toList.contains c
  let trimmed := (word.reverse.dropWhile (· == ' ')).reverse
  if isMoment trimmed then some (.moment, cs.drop word.length) else none

def named? : List Char → Option (Number × List Char)
  | 'i' :: 'n' :: 'f' :: cs => some (.real, cs)
  | 'n' :: 'a' :: 'n' :: cs => some (.real, cs)
  | _ => none

/-- A number, and what follows it. Only decimals have signs. -/
def read? : List Char → Option (Number × List Char)
  | '0' :: 'b' :: cs => marked? 2 'b' cs
  | '0' :: 'o' :: cs => marked? 8 'o' cs
  | '0' :: 'x' :: cs => marked? 16 'x' cs
  | c :: cs =>
    if c = '+' || c = '-' then
      match named? cs with
      | some r => some r
      | none => if cs.head?.any Char.isDigit then decimal? (c :: cs) else none
    else if c.isDigit then
      match cs.dropWhile Char.isDigit with
      | '-' :: _ | ':' :: _ => moment? (c :: cs)
      | _ => decimal? (c :: cs)
    else named? (c :: cs)
  | [] => none

end Number

end PascalCheck.Toml
