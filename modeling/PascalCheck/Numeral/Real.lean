import PascalCheck.Numeral.Digits

namespace PascalCheck.Numeral

/-- What a text means as a real numeral. -/
inductive RealClass where
  | malformed
  | finite
  | overflow
  | infinite
  | notANumber
deriving DecidableEq, Repr

/-- The exact value `mantissa * base ^ exponent`, without its sign. -/
structure Scientific where
  mantissa : Nat
  base : Nat
  exponent : Int
deriving DecidableEq, Repr

/-- The least magnitude that rounds to infinity. -/
def realLimit : Nat := Nat.pow 2 1024 - Nat.pow 2 970

def Scientific.isFinite (x : Scientific) : Bool :=
  x.mantissa * x.base.pow x.exponent.toNat < realLimit * x.base.pow (-x.exponent).toNat

/-- The digits of a mantissa read so far: their value, how many stand after the point, whether
the point was read and whether any digit was. -/
structure Mantissa where
  value : Nat
  places : Nat
  pointed : Bool
  any : Bool
deriving DecidableEq, Repr

def Mantissa.empty : Mantissa := ⟨0, 0, false, false⟩

def Mantissa.push (m : Mantissa) (base d : Nat) : Mantissa :=
  ⟨m.value * base + d, if m.pointed then m.places + 1 else m.places, m.pointed, true⟩

/-- Reads digits, separators and one point, and leaves the rest. -/
def readMantissa (base : Nat) : Mantissa → List Char → Mantissa × List Char
  | m, [] => (m, [])
  | m, c :: cs =>
    if c == '_' then readMantissa base m cs
    else if c == '.' then
      if m.pointed then (m, c :: cs)
      else readMantissa base { m with pointed := true } cs
    else
      match digitOf? base c with
      | some d => readMantissa base (m.push base d) cs
      | none => (m, c :: cs)

/-- Reads the digits of an exponent. Once the value has five digits the others are passed over. -/
def readExponentDigits : Nat → List Char → Nat × List Char
  | e, [] => (e, [])
  | e, c :: cs =>
    if c == '_' then readExponentDigits e cs
    else if c.isDigit then
      readExponentDigits (if e < 10000 then e * 10 + (c.toNat - '0'.toNat) else e) cs
    else (e, c :: cs)

def readExponent? (cs : List Char) : Option Int :=
  let (negative, ds) := splitSign cs
  match ds with
  | [] => none
  | d :: _ =>
    if d.isDigit then
      match readExponentDigits 0 ds with
      | (e, []) => some (if negative then -e else e)
      | _ => none
    else none

def readDecimal? (cs : List Char) : Option Scientific :=
  let (m, rest) := readMantissa 10 .empty cs
  if m.any then
    match rest with
    | [] => some ⟨m.value, 10, -m.places⟩
    | c :: es =>
      if c == 'e' || c == 'E' then
        (readExponent? es).map fun e => ⟨m.value, 10, e - m.places⟩
      else none
  else none

/-- The exact value of an unsigned hexadecimal numeral after its mark: the exponent is required
and counts powers of two. -/
def readHexadecimal? (cs : List Char) : Option Scientific :=
  let (m, rest) := readMantissa 16 .empty cs
  if m.any then
    match rest with
    | [] => none
    | c :: es =>
      if c == 'p' || c == 'P' then
        (readExponent? es).map fun e => ⟨m.value, 2, e - 4 * m.places⟩
      else none
  else none

def readReal? (text : List Char) : Option Scientific :=
  if text.contains '_' && !separatorsFit text then none
  else
    match (splitSign text).2 with
    | '0' :: x :: c :: cs =>
      if x == 'x' || x == 'X' then readHexadecimal? (c :: cs)
      else readDecimal? ('0' :: x :: c :: cs)
    | cs => readDecimal? cs

/-- The names of the infinite values, in any case, and with an optional sign. -/
def isInfinityName (text : List Char) : Bool :=
  let word := (splitSign text).2.map Char.toLower
  word == "inf".toList || word == "infinity".toList

/-- The name of the value that is not a number, in any case and without a sign. -/
def isNanName (text : List Char) : Bool :=
  text.map Char.toLower == "nan".toList

def classifyReal (text : String) : RealClass :=
  let cs := text.toList
  if isInfinityName cs then .infinite
  else if isNanName cs then .notANumber
  else
    match readReal? cs with
    | none => .malformed
    | some x => if x.isFinite then .finite else .overflow

end PascalCheck.Numeral
