import PascalCheck.Diagnostic.Cause
import PascalCheck.Token.Basic

namespace PascalCheck

/-- An opening or closing bracket. -/
inductive BracketMark where
  | opening (b : Bracket)
  | closing (b : Bracket)
deriving DecidableEq, Repr

def BracketMark.ofChar? (c : Char) : Option BracketMark :=
  if c = Bracket.round.opening then some (.opening .round)
  else if c = Bracket.square.opening then some (.opening .square)
  else if c = Bracket.curly.opening then some (.opening .curly)
  else if c = Bracket.round.closing then some (.closing .round)
  else if c = Bracket.square.closing then some (.closing .square)
  else if c = Bracket.curly.closing then some (.closing .curly)
  else none

/-- The brackets in a token: a star and a parenthesis count as the parenthesis. -/
def Token.brackets (t : Token) : List BracketMark :=
  if t.kind = .operator then t.lexeme.toList.filterMap BracketMark.ofChar? else []

/-- An open bracket and the line it stands on. -/
structure OpenBracket where
  bracket : Bracket
  line : Nat
deriving DecidableEq, Repr

/-- The open brackets, innermost first. -/
structure Brackets where
  frames : List OpenBracket
deriving DecidableEq, Repr

namespace Brackets

def empty : Brackets := ⟨[]⟩

def meet (bs : Brackets) (line : Nat) : BracketMark → Brackets × Option BracketFault
  | .opening b => (⟨⟨b, line⟩ :: bs.frames⟩, none)
  | .closing b =>
    match bs.frames with
    | [] => (bs, some (.extra b))
    | top :: frames =>
      (⟨frames⟩, if top.bracket = b then none else some (.mismatch top.bracket b))

/-- What is reported for the brackets left open, each on its own line, outermost first. -/
def unclosed (bs : Brackets) : List (Nat × BracketFault) :=
  bs.frames.reverse.map fun f => (f.line, .unclosed f.bracket f.line)

end Brackets

end PascalCheck
