
namespace PascalCheck.Message

/-- A value shown in a message. -/
inductive Operand where
  | text (s : String)
  | int (n : Int)
  | bool (b : Bool)
  | nothing
deriving DecidableEq, Repr

namespace Operand

def plain : Operand → String
  | .text s => s
  | .int n => toString n
  | .bool b => if b then "true" else "false"
  | .nothing => "<nil>"

def labelled : Operand → String
  | .text s => "string=" ++ s
  | .int n => "int=" ++ toString n
  | .bool b => "bool=" ++ if b then "true" else "false"
  | .nothing => "<nil>"

/-- The operand in a place made for a text; any other operand is marked as out of place. -/
def placed : Operand → String
  | .text s => s
  | o => "%!s(" ++ o.labelled ++ ")"

def isText : Operand → Bool
  | .text _ => true
  | _ => false

end Operand

def template? : Int → Option (List String)
  | 100 => some ["missing ';'"]
  | 101 => some ["missing '.' after end"]
  | 102 => some ["invalid literal: ", ""]
  | 104 => some ["expected ", ", got ", ""]
  | 106 => some ["undeclared variable '", "'"]
  | 107 => some ["missing begin"]
  | 108 => some ["missing end"]
  | 109 => some ["missing ':='"]
  | 112 => some ["type mismatch: ", ""]
  | 113 => some ["duplicate identifier '", "'"]
  | 116 => some ["", ""]
  | 117 => some ["unterminated string literal"]
  | 118 => some ["invalid character: ", ""]
  | 119 => some ["integer literal ", " out of range [-32768, 32767]"]
  | 120 => some ["real literal ", " out of representable range"]
  | _ => none

def surplus : List Operand → String
  | [] => ""
  | os => "%!(EXTRA " ++ String.intercalate ", " (os.map Operand.labelled) ++ ")"

/-- Puts operands into the places between texts; a place without an operand is marked. -/
def fill : List String → List Operand → String
  | [], os => surplus os
  | [last], os => last ++ surplus os
  | t :: ts, [] => t ++ "%!s(MISSING)" ++ fill ts []
  | t :: ts, o :: os => t ++ o.placed ++ fill ts os

/-- Operands side by side, with a space between two of which neither is a text. -/
def sideBySide : List Operand → String
  | [] => ""
  | [o] => o.plain
  | o :: p :: os =>
    o.plain ++ (if o.isText || p.isText then "" else " ") ++ sideBySide (p :: os)

/-- The message of a code with its operands. A template without places shows none of them. -/
def format (code : Int) (operands : List Operand) : String :=
  match template? code with
  | none => sideBySide operands
  | some [text] => text
  | some texts => fill texts operands

end PascalCheck.Message
