import PascalCheck.Source.Position
import PascalCheck.Token.Code

namespace PascalCheck

/-- The type of a value. Types beyond the language have a number only and are named `none`. -/
inductive ValueType where
  | none
  | integer
  | real
  | other (index : Int)
deriving DecidableEq, Repr, Inhabited

namespace ValueType

def ofIndex : Int → ValueType
  | 0 => .none
  | 1 => .integer
  | 2 => .real
  | n => .other n

def name : ValueType → String
  | .integer => "integer"
  | .real => "real"
  | _ => "none"

def ofCode? (code : Int) : Option ValueType :=
  if code = Code.integerWord then some .integer
  else if code = Code.realWord then some .real
  else Option.none

end ValueType

/-- A formal parameter. One that was not read from a source has no place and stands at line and
column zero. -/
structure Param where
  name : String
  type : ValueType
  place : Position := ⟨0, 0⟩
deriving DecidableEq, Repr

/-- A declared variable or routine; the type of a routine is that of its result. -/
structure Symbol where
  name : String
  type : ValueType
  isFunction : Bool
  line : Int
  params : List Param
deriving DecidableEq, Repr

def Symbol.key (s : Symbol) : String := Text.lower s.name

end PascalCheck
