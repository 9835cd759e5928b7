import PascalCheck.Analysis.Event

namespace PascalCheck

/-- The tokens not yet given, what is known of the end, and the line reached. -/
structure Stream where
  pending : List Token
  final : Token
  openQuote : Option Nat
  ended : Bool
  line : Nat
  run : Run
deriving DecidableEq, Repr

namespace Stream

def ofBytes (source : List UInt8) (sink : Sink) : Stream :=
  let scan := Scan.ofBytes source
  ⟨scan.tokens, scan.final, scan.openQuote, false, 1, .ofChecker (.ofSink sink)⟩

def next (s : Stream) : Token × Stream :=
  match s.pending with
  | t :: ts => (t, { s with pending := ts, line := t.line, run := s.run.scan t })
  | [] =>
    if s.ended then (s.final, s)
    else
      (s.final,
        { s with ended := true, line := s.final.line, run := s.run.step (.ended s.openQuote) })

def balance (s : Stream) : Stream := { s with run := s.run.balance }

def diagnostics (s : Stream) : List Diagnostic := s.run.checker.sink.list

end Stream

end PascalCheck
