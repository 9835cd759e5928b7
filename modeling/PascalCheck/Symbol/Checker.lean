import PascalCheck.Diagnostic.Sink
import PascalCheck.Symbol.Literal
import PascalCheck.Symbol.Table

namespace PascalCheck

namespace SymbolTable

def checkDeclared (t : SymbolTable) (name : String) : Finding :=
  if t.contains name then .pass else .fail (.undeclared name)

def checkTarget (s : Symbol) : Finding :=
  if s.isFunction then .fail (.notAVariable s.name) else .pass

def checkLiteralType (s : Symbol) (l : Literal) : Finding :=
  if l.isReal ∧ s.type = .integer then .fail (.mismatch (.realLiteral l.text s.name)) else .pass

/-- A literal can be assigned to a name: it is in range for its own type, the name is a declared
variable, and the literal has and fits the variable's type. -/
def checkAssign (t : SymbolTable) (name : String) (l : Literal) : Finding :=
  match t.lookup? name with
  | none => ⟨false, .undeclared name :: l.check.causes⟩
  | some s =>
    ((l.check.andThen (checkTarget s)).andThen (checkLiteralType s l)).andThen (s.type.check l.text)

/-- The source has a value, and a real one is not assigned to an integer variable. -/
def checkSource (target source : Symbol) : Finding :=
  if source.type = .none then .fail (.mismatch (.noValue source.name))
  else if source.type = .real ∧ target.type = .integer then
    .fail (.mismatch (.realSource source.name target.name))
  else .pass

def checkAssignName (t : SymbolTable) (target source : String) : Finding :=
  match t.lookup? target, t.lookup? source with
  | some d, some s => (checkTarget d).andThen (checkSource d s)
  | d, s =>
    ⟨false, (if d.isSome then [] else [.undeclared target]) ++
      (if s.isSome then [] else [.undeclared source])⟩

end SymbolTable

/-- The declared names of a run and the record of its diagnostics. -/
structure Checker where
  table : SymbolTable
  sink : Sink
deriving DecidableEq, Repr

namespace Checker

def ofSink (s : Sink) : Checker := ⟨.empty, s⟩

def report (c : Checker) (line : Int) (cause : Cause) : Checker :=
  { c with sink := c.sink.add (cause.onLine line) }

def record (c : Checker) (line : Int) (f : Finding) : Checker :=
  f.causes.foldl (fun c cause => c.report line cause) c

def declareFinding (c : Checker) (s : Symbol) : Finding :=
  if c.table.contains s.name then .fail (.duplicate s.name) else .pass

def declare (c : Checker) (s : Symbol) : Checker :=
  { c with table := c.table.insert s }.record s.line (c.declareFinding s)

def use (c : Checker) (name : String) (line : Int) : Checker :=
  c.record line (c.table.checkDeclared name)

def literal (c : Checker) (l : Literal) (line : Int) : Checker := c.record line l.check

def assign (c : Checker) (name : String) (l : Literal) (line : Int) : Checker :=
  c.record line (c.table.checkAssign name l)

def assignName (c : Checker) (target source : String) (line : Int) : Checker :=
  c.record line (c.table.checkAssignName target source)

end Checker

end PascalCheck
