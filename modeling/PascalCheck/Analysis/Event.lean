import PascalCheck.Symbol.Checker
import PascalCheck.Token.Brackets
import PascalCheck.Token.Layout

namespace PascalCheck

/-- Something that happens while a source is read. At a `balance` the brackets opened so far should
be closed. -/
inductive Event where
  | scanned (t : Token)
  | ended (openQuote : Option Nat)
  | balance
  | literal (l : Literal) (line : Nat)
  | fault (cause : Cause) (line : Nat)
  | declare (s : Symbol)
  | use (name : String) (line : Nat)
  | assign (name : String) (l : Literal) (line : Nat)
  | assignName (target source : String) (line : Nat)
deriving DecidableEq, Repr

def Token.cause? (t : Token) : Option Cause :=
  if t.kind = .unknown then some (.invalidCharacter t.lexeme)
  else if t.isReal && Numeral.classifyReal t.lexeme == .malformed then
    some (.invalidLiteral t.lexeme)
  else none

/-- The literal a number stands for, with the sign of a minus before it. -/
def Token.literal (t : Token) (negated : Bool) : Literal :=
  ⟨if negated then "-" ++ t.lexeme else t.lexeme, t.isReal⟩

def Token.literalEvents (t : Token) (negated : Bool) : List Event :=
  if t.kind = .number then [.literal (t.literal negated) t.line] else []

/-- The open brackets of a source and the checker its events are reported to. -/
structure Run where
  brackets : Brackets
  checker : Checker
deriving DecidableEq, Repr

namespace Run

def ofChecker (c : Checker) : Run := ⟨.empty, c⟩

def report (r : Run) (line : Nat) (cause : Cause) : Run :=
  { r with checker := r.checker.report line cause }

def meet (r : Run) (line : Nat) (m : BracketMark) : Run :=
  let (brackets, fault?) := r.brackets.meet line m
  fault?.elim { r with brackets } fun f => { r with brackets }.report line (.bracket f)

/-- Reports the brackets still open and forgets them. -/
def balance (r : Run) : Run :=
  r.brackets.unclosed.foldl (fun r (line, f) => r.report line (.bracket f))
    { r with brackets := .empty }

def scan (r : Run) (t : Token) : Run :=
  let r := t.brackets.foldl (fun r m => r.meet t.line m) r
  t.cause?.elim r (r.report t.line)

def step (r : Run) : Event → Run
  | .scanned t => r.scan t
  | .ended openQuote => (openQuote.elim r fun line => r.report line .unterminatedString).balance
  | .balance => r.balance
  | .literal l line => { r with checker := r.checker.literal l line }
  | .fault cause line => r.report line cause
  | .declare s => { r with checker := r.checker.declare s }
  | .use name line => { r with checker := r.checker.use name line }
  | .assign name l line => { r with checker := r.checker.assign name l line }
  | .assignName target source line =>
    { r with checker := r.checker.assignName target source line }

def replay (r : Run) (events : List Event) : Run := events.foldl step r

@[simp] theorem replay_nil (r : Run) : r.replay [] = r := rfl

@[simp] theorem replay_cons (r : Run) (e : Event) (es : List Event) :
    r.replay (e :: es) = (r.step e).replay es := rfl

@[simp] theorem replay_append (r : Run) (es fs : List Event) :
    r.replay (es ++ fs) = (r.replay es).replay fs := by
  simp [replay, List.foldl_append]

end Run

/-- What the events of a reading are told to, one after the other. -/
class Log (α : Type) where
  add : α → Event → α

namespace Log

@[default_instance]
instance : Log (Array Event) := ⟨Array.push⟩

instance : Log Run := ⟨Run.step⟩

def addAll {α : Type} [Log α] (log : α) (events : List Event) : α := events.foldl add log

@[simp] theorem add_array (events : Array Event) (e : Event) : add events e = events.push e := rfl

@[simp] theorem addAll_array (events : Array Event) (es : List Event) :
    addAll events es = events ++ es := rfl

end Log

end PascalCheck
