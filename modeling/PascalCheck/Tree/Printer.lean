import PascalCheck.Tree.Basic

namespace PascalCheck

def Expr.render : Expr → String
  | .absent => "<nil>"
  | .ident id => id.name
  | .number _ text _ => text
  | .paren _ inner => "(" ++ inner.render ++ ")"

mutual

def Stmt.render : Stmt → String
  | .assign _ target value => target.name ++ " := " ++ value.render ++ ";"
  | .writeln _ args => "writeln(" ++ String.intercalate ", " (args.map Expr.render) ++ ");"
  | .block _ body => "begin\n" ++ Stmt.renderLines body ++ "end"

def Stmt.renderLines : List Stmt → String
  | [] => ""
  | s :: ss => "  " ++ s.render ++ "\n" ++ Stmt.renderLines ss

end

def Block.render (b : Block) : String := "begin\n" ++ Stmt.renderLines b.body ++ "end"

def VarDecl.render (v : VarDecl) : String := "var " ++ v.name ++ ": " ++ v.type.name ++ ";"

def Param.render (p : Param) : String := p.name ++ ": " ++ p.type.name

def Routine.render (r : Routine) : String :=
  let params := "(" ++ String.intercalate "; " (r.params.map Param.render) ++ ")"
  if r.isFunction then "function " ++ r.name ++ params ++ ": " ++ r.result.name ++ ";"
  else "procedure " ++ r.name ++ params ++ ";"

def Program.render (p : Program) : String :=
  (if p.name = "" then "" else "program " ++ p.name ++ ";\n") ++
    String.join (p.vars.map (·.render ++ "\n")) ++
    String.join (p.routines.map (·.render ++ "\n")) ++
    (p.body.elim "" Block.render) ++ "."

def Expr.tokenText : Expr → String
  | .absent => ""
  | .ident id => id.token.lexeme
  | .number token _ _ => token.lexeme
  | .paren token _ => token.lexeme

def Stmt.tokenText : Stmt → String
  | .assign token _ _ => token.lexeme
  | .writeln token _ => token.lexeme
  | .block token _ => token.lexeme

def Program.tokenText (p : Program) : String := if p.name = "" then "" else "program"

end PascalCheck
