import PascalCheck.Diagnostic.Message

namespace PascalCheck

/-- The stage of the language a diagnostic belongs to. -/
inductive Category where
  | lexical
  | syntactic
  | semantic
deriving DecidableEq, Repr

namespace Category

def name : Category → String
  | .lexical => "lexical"
  | .syntactic => "syntax"
  | .semantic => "semantic"

def ofIndex : Int → Category
  | 0 => .lexical
  | 1 => .syntactic
  | _ => .semantic

/-- The category of a code; a code without one of its own is a matter of syntax. -/
def ofCode : Int → Category
  | 102 | 116 | 117 | 118 => .lexical
  | 106 | 112 | 113 | 119 | 120 => .semantic
  | _ => .syntactic

end Category

/-- One problem of a source. -/
structure Diagnostic where
  code : Int
  line : Int
  message : String
deriving DecidableEq, Repr

namespace Diagnostic

def ofCode (code line : Int) (operands : List Message.Operand) : Diagnostic :=
  ⟨code, line, Message.format code operands⟩

def category (d : Diagnostic) : Category := .ofCode d.code

def text (d : Diagnostic) : String :=
  "line " ++ toString d.line ++ ": error " ++ toString d.code ++ ": " ++ d.message

/-- Diagnostics are ordered by code, then by line, then by message. -/
instance : Ord Diagnostic :=
  ⟨compareLex (compareOn code) (compareLex (compareOn line) (compareOn message))⟩

instance : Std.TransOrd Diagnostic :=
  inferInstanceAs (Std.TransCmp (compareLex _ (compareLex _ _)))

instance : Std.LawfulEqOrd Diagnostic where
  eq_of_compare {d e} h := by
    obtain ⟨hcode, hrest⟩ := Ordering.then_eq_eq.1 h
    obtain ⟨hline, hmessage⟩ := Ordering.then_eq_eq.1 hrest
    cases d
    cases e
    congr
    · exact Std.LawfulEqCmp.eq_of_compare hcode
    · exact Std.LawfulEqCmp.eq_of_compare hline
    · exact Std.LawfulEqCmp.eq_of_compare hmessage

end Diagnostic

end PascalCheck
