import PascalCheck.Diagnostic.Cause
import PascalCheck.Numeral.Integer
import PascalCheck.Numeral.Real
import PascalCheck.Symbol.Basic

namespace PascalCheck

/-- The outcome of a check: whether it passed, and what it reports. -/
structure Finding where
  ok : Bool
  causes : List Cause
deriving DecidableEq, Repr

namespace Finding

def pass : Finding := ⟨true, []⟩

def fail (c : Cause) : Finding := ⟨false, [c]⟩

/-- A check that failed for a cause reported elsewhere. -/
def failQuietly : Finding := ⟨false, []⟩

def andThen (f g : Finding) : Finding := if f.ok then ⟨g.ok, f.causes ++ g.causes⟩ else f

end Finding

/-- A numeric literal as written, with a minus sign in front of its text if it has one. -/
structure Literal where
  text : String
  isReal : Bool
deriving DecidableEq, Repr

namespace Literal

def type (l : Literal) : ValueType := if l.isReal then .real else .integer

end Literal

def minInteger : Int := -32768

def maxInteger : Int := 32767

/-- The text is a value of the type. A malformed real is refused without a report, since its
token is reported where it is read. -/
def ValueType.check (type : ValueType) (text : String) : Finding :=
  match type with
  | .integer =>
    match Numeral.parseDecimal text with
    | .error .malformed => .fail (.invalidLiteral text)
    | .error .outOfRange => .fail (.integerRange text)
    | .ok v => if minInteger ≤ v ∧ v ≤ maxInteger then .pass else .fail (.integerRange text)
  | .real =>
    match Numeral.classifyReal text with
    | .malformed => .failQuietly
    | .finite => .pass
    | _ => .fail (.realRange text)
  | _ => .pass

def Literal.check (l : Literal) : Finding := l.type.check l.text

end PascalCheck
