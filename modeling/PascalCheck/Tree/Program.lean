import PascalCheck.Tree.Declaration
import PascalCheck.Tree.Statement

namespace PascalCheck

namespace Reader

variable {α : Type} [Log α]

def header (s : Reader α) : String × Reader α :=
  if s.sees Code.programWord then
    match s.advance.here? with
    | none => ("", (s.advance.unexpected .programName).synchronize)
    | some t =>
      if t.kind = .ident then (t.lexeme, s.advance.advance.expectSemicolon)
      else ("", (s.advance.unexpected .programName).synchronize)
  else ("", s)

/-- Takes the final point, where all brackets should be closed, and reports what follows it. -/
def terminator (s : Reader α) : Reader α :=
  if s.sees Code.dot then
    let t := (s.emit .balance).advance
    if t.atEnd then t else (t.unexpected .endOfInput).drain
  else (s.report .missingDot s.lastLine).drain

def program (s : Reader α) : Program × Reader α :=
  let (name, s) := s.header
  let ((vars, routines), s) := s.declarations
  let (body, s) := s.block
  (⟨name, vars, routines, some body⟩, s.terminator)

end Reader

/-- The tree of a scan and the trace of its reading. -/
def Program.ofScan (scan : Scan) : Program × List Event :=
  let (program, s) := (Reader.ofScan scan).program
  (program, s.trace.toList)

end PascalCheck
