import PascalCheck.Analysis.Event

namespace PascalCheck

/-- The events of a list of tokens: a number is checked with the sign of a minus right before
it. -/
def tokenEvents (negated : Bool) : List Token → List Event
  | [] => []
  | t :: ts => .scanned t :: t.literalEvents negated ++ tokenEvents (t.is Code.minus) ts

def Scan.events (s : Scan) : List Event := tokenEvents false s.tokens ++ [.ended s.openQuote]

def tokenize (source : List UInt8) : List Token × List Diagnostic :=
  let scan := Scan.ofBytes source
  (scan.tokens, ((Run.ofChecker (.ofSink .empty)).replay scan.events).checker.sink.list)

end PascalCheck
