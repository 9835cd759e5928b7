import PascalCheck.Analysis.Event

namespace PascalCheck

/-- A token and what happens when it is taken. -/
structure Reading where
  token : Token
  events : List Event
deriving DecidableEq, Repr

namespace Reading

/-- The tokens without the illegal characters, and the events left for the end. A number is
checked with the sign of a minus before it. -/
def gather (negated : Bool) (pending : List Event) : List Token → List Reading × List Event
  | [] => ([], pending)
  | t :: ts =>
    if t.kind = .unknown then gather negated (pending ++ [.scanned t]) ts
    else
      let (readings, last) := gather (t.is Code.minus) [] ts
      (⟨t, pending ++ .scanned t :: t.literalEvents negated⟩ :: readings, last)

end Reading

/-- The token taken last, the tokens ahead, the end of the input, and the log so far: a trace of the
events, unless the reader has them acted on. -/
structure Reader (α : Type := Array Event) where
  prev : Option Token
  rest : List Reading
  final : Reading
  trace : α
deriving DecidableEq, Repr

namespace Reader

variable {α : Type}

def here? (s : Reader α) : Option Token := s.rest.head?.map Reading.token

def current (s : Reader α) : Token := (s.rest.headD s.final).token

def atEnd (s : Reader α) : Bool := s.rest.isEmpty

def remaining (s : Reader α) : Nat := s.rest.length

def sees (s : Reader α) (code : Int) : Bool := s.here?.any (·.is code)

def seesKind (s : Reader α) (kind : Kind) : Bool := s.here?.any (·.kind == kind)

def line (s : Reader α) : Nat := s.current.line

/-- The line of the token taken last, where something missing belongs. -/
def lastLine (s : Reader α) : Nat := s.prev.elim s.line Token.line

theorem here?_of_sees {s : Reader α} {code : Int} (h : s.sees code) : ∃ t, s.here? = some t := by
  cases hs : s.here? with
  | none => simp [sees, hs] at h
  | some t => exact ⟨t, rfl⟩

theorem here?_of_seesKind {s : Reader α} {kind : Kind} (h : s.seesKind kind) :
    ∃ t, s.here? = some t := by
  cases hs : s.here? with
  | none => simp [seesKind, hs] at h
  | some t => exact ⟨t, rfl⟩

variable [Log α]

def start (log : α) (scan : Scan) : Reader α :=
  let (rest, last) := Reading.gather false [] scan.tokens
  let final : Reading := ⟨scan.final, last ++ [.ended scan.openQuote]⟩
  ⟨none, rest, final, Log.addAll log (rest.headD final).events⟩

def ofScan (scan : Scan) : Reader := start #[] scan

def emit (s : Reader α) (e : Event) : Reader α := { s with trace := Log.add s.trace e }

/-- Asks for the next token. At the end of the input that is the end once more. -/
def advance (s : Reader α) : Reader α :=
  match s.rest with
  | [] => { s with prev := some s.final.token, trace := Log.add s.trace (.ended none) }
  | r :: rs =>
    { s with
      prev := some r.token
      rest := rs
      trace := Log.addAll s.trace (rs.headD s.final).events }

def report (s : Reader α) (cause : Cause) (line : Nat) : Reader α := s.emit (.fault cause line)

/-- Reports that something else was wanted in place of the token ahead. -/
def unexpected (s : Reader α) (wanted : Wanted) : Reader α :=
  s.report (.unexpected wanted s.current.describe) s.line

@[simp] theorem remaining_emit (s : Reader α) (e : Event) :
    (s.emit e).remaining = s.remaining := rfl

@[simp] theorem remaining_report (s : Reader α) (c : Cause) (n : Nat) :
    (s.report c n).remaining = s.remaining := rfl

@[simp] theorem remaining_unexpected (s : Reader α) (w : Wanted) :
    (s.unexpected w).remaining = s.remaining := rfl

theorem remaining_advance (s : Reader α) : s.advance.remaining = s.remaining - 1 := by
  unfold advance
  split <;> simp_all [remaining]

theorem remaining_advance_le (s : Reader α) : s.advance.remaining ≤ s.remaining := by
  rw [remaining_advance]
  exact Nat.sub_le _ _

theorem remaining_advance_lt {s : Reader α} {t : Token} (h : s.here? = some t) :
    s.advance.remaining < s.remaining := by
  rw [remaining_advance]
  cases hr : s.rest with
  | nil => simp [here?, hr] at h
  | cons r rs => simp [remaining, hr]

theorem remaining_advance_lt_of_sees {s : Reader α} {code : Int} (h : s.sees code) :
    s.advance.remaining < s.remaining := by
  obtain ⟨t, ht⟩ := here?_of_sees h
  exact remaining_advance_lt ht

def skipWhile (p : Token → Bool) (s : Reader α) : Reader α :=
  match _h : s.here? with
  | none => s
  | some t => if p t then skipWhile p s.advance else s
termination_by s.remaining
decreasing_by exact remaining_advance_lt ‹_›

theorem remaining_skipWhile_le (p : Token → Bool) (s : Reader α) :
    (s.skipWhile p).remaining ≤ s.remaining := by
  fun_induction skipWhile p s with
  | case1 s h => exact Nat.le_refl _
  | case2 s t h hp ih => exact Nat.le_trans ih s.remaining_advance_le
  | case3 s t h hp => exact Nat.le_refl _

def drain (s : Reader α) : Reader α := s.skipWhile fun _ => true

/-- A word that starts a block or a declaration, or ends a block. -/
def isRestart (t : Token) : Bool :=
  t.is Code.endWord || t.is Code.beginWord || t.is Code.varWord || t.is Code.functionWord ||
    t.is Code.procedureWord

def accept (s : Reader α) (code : Int) : Reader α := if s.sees code then s.advance else s

theorem remaining_accept_le (s : Reader α) (code : Int) :
    (s.accept code).remaining ≤ s.remaining := by
  unfold accept
  split
  · exact s.remaining_advance_le
  · exact Nat.le_refl _

/-- Skips to a place where reading can go on: past the next semicolon, or up to a restart word, a
point or the end. -/
def synchronize (s : Reader α) : Reader α :=
  (s.skipWhile fun t => !(t.is Code.semicolon || isRestart t || t.is Code.dot)).accept
    Code.semicolon

theorem remaining_synchronize_le (s : Reader α) : s.synchronize.remaining ≤ s.remaining :=
  Nat.le_trans (remaining_accept_le _ _) (remaining_skipWhile_le _ _)

def expectSemicolon (s : Reader α) : Reader α :=
  if s.sees Code.semicolon then s.advance
  else (s.report .missingSemicolon s.lastLine).synchronize

theorem remaining_expectSemicolon_le (s : Reader α) :
    s.expectSemicolon.remaining ≤ s.remaining := by
  unfold expectSemicolon
  split
  · exact s.remaining_advance_le
  · exact remaining_synchronize_le _

end Reader

end PascalCheck
