import PascalCheck.Analysis.Tokenize
import PascalCheck.Tree.Program

namespace PascalCheck

/-- Reads a source in step with a checker, which may know earlier sources. What the checks find is
recorded, and the reading goes on in any case. -/
def Checker.read (c : Checker) (source : List UInt8) : Program × Checker :=
  let (program, s) := (Reader.start (Run.ofChecker c) (Scan.ofBytes source)).program
  (program, s.trace.checker)

/-- What an analysis is asked for: the list of tokens, and at most so many diagnostics. -/
structure Options where
  tokens : Bool
  maxDiagnostics : Int
deriving DecidableEq, Repr

/-- The outcome of an analysis. -/
structure Report where
  tokens : List Token
  diagnostics : List Diagnostic
  symbols : List Symbol
  program : Program

def Report.name (r : Report) : String := r.program.name

def Report.ok (r : Report) : Bool := r.diagnostics.isEmpty

def analyze (source : List UInt8) (options : Options) : Report :=
  let (program, c) := (Checker.ofSink (Sink.empty.setLimit options.maxDiagnostics)).read source
  { tokens := if options.tokens then (tokenize source).1 else []
    diagnostics := c.sink.list
    symbols := c.table.symbols
    program := program }

end PascalCheck
