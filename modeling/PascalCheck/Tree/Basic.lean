import PascalCheck.Symbol.Literal
import PascalCheck.Token.Basic

namespace PascalCheck

/-- A reference to a name. -/
structure Ident where
  token : Token
  name : String
deriving DecidableEq

/-- An expression. A number keeps its sign in its text; an absent expression stands where none
was given. -/
inductive Expr where
  | absent
  | ident (id : Ident)
  | number (token : Token) (text : String) (isReal : Bool)
  | paren (token : Token) (inner : Expr)
deriving DecidableEq

/-- A statement. -/
inductive Stmt where
  | assign (token : Token) (target : Ident) (value : Expr)
  | writeln (token : Token) (args : List Expr)
  | block (token : Token) (body : List Stmt)

/-- The body of a program. -/
structure Block where
  token : Token
  body : List Stmt

/-- One declared variable. -/
structure VarDecl where
  token : Token
  name : String
  type : ValueType
deriving DecidableEq

/-- The header of a function or a procedure. -/
structure Routine where
  token : Token
  name : String
  params : List Param
  result : ValueType
  isFunction : Bool
deriving DecidableEq

/-- A program; its name is empty if it has no header. -/
structure Program where
  name : String
  vars : List VarDecl
  routines : List Routine
  body : Option Block

namespace Expr

def unparen : Expr → Expr
  | .paren t .absent => .paren t .absent
  | .paren _ inner => inner.unparen
  | e => e

def literal? : Expr → Option Literal
  | .number _ text isReal => some ⟨text, isReal⟩
  | _ => none

end Expr

def VarDecl.symbol (v : VarDecl) : Symbol := ⟨v.name, v.type, false, v.token.line, []⟩

/-- The symbol a routine declares, on the line of its first word. -/
def Routine.symbol (r : Routine) : Symbol := ⟨r.name, r.result, true, r.token.line, r.params⟩

end PascalCheck
