import PascalCheck.Source.Position
import PascalCheck.Token.Code

namespace PascalCheck

/-- The class of a token. Kinds beyond the seven classes of the language have a number only. -/
inductive Kind where
  | endOfInput
  | keyword
  | ident
  | number
  | operator
  | colon
  | unknown
  | other (index : Int)
deriving DecidableEq, Repr, Inhabited

def Kind.ofIndex : Int → Kind
  | 0 => .endOfInput
  | 1 => .keyword
  | 2 => .ident
  | 3 => .number
  | 4 => .operator
  | 5 => .colon
  | 6 => .unknown
  | n => .other n

def Kind.name : Kind → String
  | .endOfInput => "end of input"
  | .keyword => "keyword"
  | .ident => "identifier"
  | .number => "number"
  | .operator => "operator"
  | .colon => "colon"
  | .unknown => "unknown"
  | .other _ => "unknown"

/-- A token of a source. -/
structure Token where
  kind : Kind
  lexeme : String
  code : Int
  place : Position
deriving DecidableEq, Repr, Inhabited

namespace Token

/-- The token carries a code. The end of the input and illegal characters carry none. -/
def is (t : Token) (code : Int) : Bool :=
  t.kind != .endOfInput && t.kind != .unknown && t.code == code

def isReal (t : Token) : Bool := t.kind == .number && t.code == Code.realLiteral

/-- The spelling of a token, or the name of the end of the input. -/
def text (t : Token) : String :=
  if t.kind = .endOfInput then Kind.endOfInput.name else t.lexeme

def describe (t : Token) : String :=
  if t.kind = .endOfInput then Kind.endOfInput.name else "'" ++ t.lexeme ++ "'"

def line (t : Token) : Nat := t.place.line

def endAt (p : Position) : Token := ⟨.endOfInput, "", Code.endOfInput, p⟩

end Token

end PascalCheck
