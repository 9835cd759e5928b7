import PascalCheck.Diagnostic.Basic

namespace PascalCheck

/-- A kind of bracket. -/
inductive Bracket where
  | round
  | square
  | curly
deriving DecidableEq, Repr

namespace Bracket

def opening : Bracket → Char
  | .round => '('
  | .square => '['
  | .curly => '\x7b'

def closing : Bracket → Char
  | .round => ')'
  | .square => ']'
  | .curly => '\x7d'

end Bracket

/-- How brackets fail to match. -/
inductive BracketFault where
  | extra (got : Bracket)
  | mismatch (wanted got : Bracket)
  | unclosed (opened : Bracket) (line : Nat)
deriving DecidableEq, Repr

/-- What the grammar allows at a place. -/
inductive Wanted where
  | programName
  | routineName
  | identifier
  | colon
  | type
  | rightParen
  | statement
  | number
  | expression
  | endOfInput
deriving DecidableEq, Repr

/-- How the two sides of an assignment fail to fit. -/
inductive Mismatch where
  | realLiteral (text target : String)
  | realSource (source target : String)
  | noValue (source : String)
deriving DecidableEq, Repr

/-- Why a diagnostic is given. -/
inductive Cause where
  | missingSemicolon
  | missingDot
  | missingBegin
  | missingEnd
  | missingAssign
  | unexpected (wanted : Wanted) (got : String)
  | notAVariable (name : String)
  | undeclared (name : String)
  | duplicate (name : String)
  | mismatch (m : Mismatch)
  | invalidLiteral (text : String)
  | integerRange (text : String)
  | realRange (text : String)
  | bracket (f : BracketFault)
  | unterminatedString
  | invalidCharacter (text : String)
deriving DecidableEq, Repr

def Bracket.quoted (c : Char) : String := "'" ++ c.toString ++ "'"

def BracketFault.text : BracketFault → String
  | .extra got => "extra closing bracket " ++ Bracket.quoted got.closing
  | .mismatch wanted got =>
    "bracket mismatch: expected " ++ Bracket.quoted wanted.closing ++ ", got " ++
      Bracket.quoted got.closing
  | .unclosed opened line =>
    "unclosed bracket " ++ Bracket.quoted opened.opening ++ " opened at line " ++ toString line

def Wanted.text : Wanted → String
  | .programName => "program name"
  | .routineName => "routine name"
  | .identifier => "identifier"
  | .colon => "':'"
  | .type => "type"
  | .rightParen => "')'"
  | .statement => "statement"
  | .number => "number"
  | .expression => "expression"
  | .endOfInput => "end of input"

def Mismatch.text : Mismatch → String
  | .realLiteral text target => "cannot assign real " ++ text ++ " to integer '" ++ target ++ "'"
  | .realSource source target =>
    "cannot assign real '" ++ source ++ "' to integer '" ++ target ++ "'"
  | .noValue source => "procedure '" ++ source ++ "' has no value"

namespace Cause

def code : Cause → Int
  | .missingSemicolon => 100
  | .missingDot => 101
  | .invalidLiteral _ => 102
  | .unexpected _ _ => 104
  | .notAVariable _ => 104
  | .undeclared _ => 106
  | .missingBegin => 107
  | .missingEnd => 108
  | .missingAssign => 109
  | .mismatch _ => 112
  | .duplicate _ => 113
  | .bracket _ => 116
  | .unterminatedString => 117
  | .invalidCharacter _ => 118
  | .integerRange _ => 119
  | .realRange _ => 120

/-- The texts a cause puts into the template of its code. -/
def operands : Cause → List String
  | .unexpected wanted got => [wanted.text, got]
  | .notAVariable name => ["variable", "function '" ++ name ++ "'"]
  | .undeclared name => [name]
  | .duplicate name => [name]
  | .mismatch m => [m.text]
  | .invalidLiteral text => [text]
  | .integerRange text => [text]
  | .realRange text => [text]
  | .bracket f => [f.text]
  | .invalidCharacter text => [text]
  | _ => []

def onLine (c : Cause) (line : Int) : Diagnostic :=
  .ofCode c.code line (c.operands.map .text)

end Cause

end PascalCheck
