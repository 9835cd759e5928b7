import PascalCheck.Calendar
import PascalCheck.Document.PlainScalar
import PascalCheck.Yaml.Node

namespace PascalCheck.Yaml

open Document (PlainScalar)

/-- What a text means: a value of its own, or just its characters. -/
structure Meaning where
  value : PlainScalar
  text : String
deriving DecidableEq, Repr

/-- The word is a date, with or without a time of day. The time stands after blanks, or after a
letter and then with an offset. -/
def isMoment (cs : List Char) : Bool :=
  match Calendar.date? true cs with
  | some [] => true
  | some (c :: rest) =>
    if c = ' ' then Calendar.time? true (rest.dropWhile (· == ' ')) = some []
    else if c = 'T' || c = 't' then
      ((Calendar.time? true rest).bind Calendar.offset?) = some []
    else false
  | none => false

def sextet? (c : Char) : Option Nat :=
  if c.isUpper then some (c.toNat - 'A'.toNat)
  else if c.isLower then some (c.toNat - 'a'.toNat + 26)
  else if c.isDigit then some (c.toNat - '0'.toNat + 52)
  else if c = '+' then some 62
  else if c = '/' then some 63
  else none

/-- The octets that letters in groups of four stand for; the last group may be filled up. -/
def octets? : List Char → Option (List UInt8)
  | [] => some []
  | [a, b, '=', '='] => do
    let n := (← sextet? a) * 64 + (← sextet? b)
    return [(n / 16).toUInt8]
  | [a, b, c, '='] => do
    let n := ((← sextet? a) * 64 + (← sextet? b)) * 64 + (← sextet? c)
    return [(n / 1024).toUInt8, (n / 4).toUInt8]
  | a :: b :: c :: d :: cs => do
    let n := (((← sextet? a) * 64 + (← sextet? b)) * 64 + (← sextet? c)) * 64 + (← sextet? d)
    return (n / 65536).toUInt8 :: (n / 256).toUInt8 :: n.toUInt8 :: (← octets? cs)
  | _ => none

def binaryText? (s : String) : Option String := do
  let bytes ← octets? (s.toList.filter fun c => c != '\n' && c != '\r')
  String.fromUTF8? ⟨bytes.toArray⟩

def meaningOf? (tag text : String) : Option Meaning :=
  match tag, PlainScalar.ofString text with
  | "!!null", .null => some ⟨.null, text⟩
  | "!!bool", .bool b => some ⟨.bool b, text⟩
  | "!!int", .int n => some ⟨.int n, text⟩
  | "!!float", .int n =>
    if n < Nat.pow 2 63 then some ⟨.real (n < 0) ⟨n.natAbs, 10, 0⟩, text⟩ else none
  | "!!float", .real negative x => some ⟨.real negative x, text⟩
  | "!!float", .infinity negative => some ⟨.infinity negative, text⟩
  | "!!float", .notANumber => some ⟨.notANumber, text⟩
  | "!!timestamp", _ => if isMoment text.toList then some ⟨.text, text⟩ else none
  | "!!binary", _ => (binaryText? text).map (⟨.text, ·⟩)
  | tag, _ =>
    if ["!!null", "!!bool", "!!int", "!!float"].contains tag then none else some ⟨.text, text⟩

def meaning? (tag : Option String) (plain : Bool) (text : String) : Option Meaning :=
  match tag with
  | some tag => meaningOf? tag text
  | none => some ⟨if plain then .ofString text else .text, text⟩

end PascalCheck.Yaml
