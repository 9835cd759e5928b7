import PascalCheck.Analysis.Event
import PascalCheck.Proofs.Record

namespace PascalCheck
set_option autoImplicit true

def Finding.diagnostics (f : Finding) (line : Int) : List Diagnostic := f.causes.map (·.onLine line)

theorem Finding.mem_diagnostics {f : Finding} {line : Int} :
    d ∈ f.diagnostics line ↔ ∃ c ∈ f.causes, c.onLine line = d :=
  List.mem_map

def Brackets.meetAll (bs : Brackets) (line : Nat) :
    List BracketMark → Brackets × List BracketFault
  | [] => (bs, [])
  | m :: ms =>
    ((bs.meet line m).1.meetAll line ms |>.1,
      (bs.meet line m).2.toList ++ ((bs.meet line m).1.meetAll line ms).2)

/-- What a token asks to have recorded by itself. -/
def Token.reports (t : Token) : List Diagnostic := t.cause?.toList.map (·.onLine t.line)

theorem Token.mem_reports {t : Token} :
    d ∈ t.reports ↔ ∃ c, t.cause? = some c ∧ c.onLine t.line = d := by
  simp [reports]

theorem Token.of_cause?_eq_some {t : Token} (h : t.cause? = some c) :
    t.kind = .unknown ∧ c = .invalidCharacter t.lexeme ∨
      (t.kind = .number ∧ t.isReal = true ∧ Numeral.classifyReal t.lexeme = .malformed) ∧
        c = .invalidLiteral t.lexeme := by
  rw [cause?] at h
  split at h
  · rename_i hk
    exact .inl ⟨hk, (Option.some.inj h).symm⟩
  split at h
  · rename_i hr
    obtain ⟨hreal, hm⟩ : t.isReal = true ∧ Numeral.classifyReal t.lexeme = .malformed := by
      simpa using hr
    have hk : t.kind = .number := by
      simp only [isReal, Bool.and_eq_true, beq_iff_eq] at hreal
      exact hreal.1
    exact .inr ⟨⟨hk, hreal, hm⟩, (Option.some.inj h).symm⟩
  · cases h

theorem Token.code_of_mem_reports {t : Token} (h : d ∈ t.reports) : d.code ≠ 116 := by
  obtain ⟨c, hc, rfl⟩ := mem_reports.1 h
  rcases of_cause?_eq_some hc with ⟨-, rfl⟩ | ⟨-, rfl⟩ <;>
    simp [Cause.onLine, Diagnostic.ofCode, Cause.code]

theorem Checker.record_eq (c : Checker) (line : Int) (f : Finding) :
    c.record line f = { c with sink := c.sink.addAll (f.diagnostics line) } := by
  obtain ⟨ok, causes⟩ := f
  simp only [record, Finding.diagnostics]
  induction causes generalizing c with
  | nil => rfl
  | cons cause causes ih => exact ih (c.report line cause)

namespace Run

def addAll (r : Run) (ds : List Diagnostic) : Run :=
  { r with checker := { r.checker with sink := r.checker.sink.addAll ds } }

theorem addAll_append (r : Run) (ds es : List Diagnostic) :
    r.addAll (ds ++ es) = (r.addAll ds).addAll es := by
  simp only [addAll, Sink.addAll_append]

def unclosedReports (r : Run) : List Diagnostic :=
  r.brackets.unclosed.map fun f => (Cause.bracket f.2).onLine f.1

def bracketReports (r : Run) (t : Token) : List Diagnostic :=
  (r.brackets.meetAll t.line t.brackets).2.map fun f => (Cause.bracket f).onLine t.line

/-- What an event asks to have recorded. -/
def reports (r : Run) : Event → List Diagnostic
  | .scanned t => r.bracketReports t ++ t.reports
  | .ended openQuote =>
    openQuote.toList.map (fun line : Nat => Cause.unterminatedString.onLine line) ++
      r.unclosedReports
  | .balance => r.unclosedReports
  | .literal l line => l.check.diagnostics line
  | .fault cause line => [cause.onLine line]
  | .declare s => (r.checker.declareFinding s).diagnostics s.line
  | .use name line => (r.checker.table.checkDeclared name).diagnostics line
  | .assign name l line => (r.checker.table.checkAssign name l).diagnostics line
  | .assignName target source line =>
    (r.checker.table.checkAssignName target source).diagnostics line

def bracketsAfter (r : Run) : Event → Brackets
  | .scanned t => (r.brackets.meetAll t.line t.brackets).1
  | .ended _ => .empty
  | .balance => .empty
  | _ => r.brackets

def tableAfter (r : Run) : Event → SymbolTable
  | .declare s => r.checker.table.insert s
  | _ => r.checker.table

theorem foldl_report (r : Run) (fs : List (Nat × BracketFault)) :
    fs.foldl (fun r (line, f) => r.report line (.bracket f)) r =
      r.addAll (fs.map fun f => (Cause.bracket f.2).onLine f.1) := by
  induction fs generalizing r with
  | nil => rfl
  | cons f fs ih => exact ih _

theorem balance_eq (r : Run) :
    r.balance = { r with brackets := .empty }.addAll r.unclosedReports :=
  foldl_report _ _

theorem meet_eq (r : Run) (line : Nat) (m : BracketMark) :
    r.meet line m = { r with brackets := (r.brackets.meet line m).1 }.addAll
      ((r.brackets.meet line m).2.toList.map fun f => (Cause.bracket f).onLine line) := by
  simp only [meet]
  cases (r.brackets.meet line m).2 <;> rfl

theorem foldl_meet (r : Run) (line : Nat) (ms : List BracketMark) :
    ms.foldl (fun r m => r.meet line m) r =
      { r with brackets := (r.brackets.meetAll line ms).1 }.addAll
        ((r.brackets.meetAll line ms).2.map fun f => (Cause.bracket f).onLine line) := by
  induction ms generalizing r with
  | nil => rfl
  | cons m ms ih =>
    rw [List.foldl_cons, ih, meet_eq]
    simp only [Brackets.meetAll, addAll, List.map_append, Sink.addAll_append]

theorem scan_eq (r : Run) (t : Token) :
    r.scan t = { r with brackets := (r.brackets.meetAll t.line t.brackets).1 }.addAll
      (r.bracketReports t ++ t.reports) := by
  rw [scan, foldl_meet, addAll_append]
  simp only [Token.reports, bracketReports]
  cases t.cause? <;> rfl

/-- An event changes the brackets and the names as they were, and adds what it asks for. -/
theorem step_eq (r : Run) (e : Event) :
    r.step e = ⟨r.bracketsAfter e, ⟨r.tableAfter e, r.checker.sink.addAll (r.reports e)⟩⟩ := by
  cases e with
  | scanned t => exact r.scan_eq t
  | ended openQuote =>
    cases openQuote with
    | none => exact r.balance_eq
    | some line => exact balance_eq _
  | balance => exact r.balance_eq
  | fault cause line => rfl
  | literal l line => simp only [step, Checker.literal, Checker.record_eq]; rfl
  | declare s => simp only [step, Checker.declare, Checker.record_eq]; rfl
  | use name line => simp only [step, Checker.use, Checker.record_eq]; rfl
  | assign name l line => simp only [step, Checker.assign, Checker.record_eq]; rfl
  | assignName target source line =>
    simp only [step, Checker.assignName, Checker.record_eq]
    rfl

theorem sink_step (r : Run) (e : Event) :
    (r.step e).checker.sink = r.checker.sink.addAll (r.reports e) := by
  rw [step_eq]

theorem table_step (r : Run) (e : Event) : (r.step e).checker.table = r.tableAfter e := by
  rw [step_eq]

/-- What a run of events asks to have recorded, in order. -/
def attempts (r : Run) : List Event → List Diagnostic
  | [] => []
  | e :: es => r.reports e ++ (r.step e).attempts es

/-- A run of events adds its attempts to the record. -/
theorem sink_replay (r : Run) (es : List Event) :
    (r.replay es).checker.sink = r.checker.sink.addAll (r.attempts es) := by
  induction es generalizing r with
  | nil => rfl
  | cons e es ih => rw [replay_cons, ih, sink_step, attempts, Sink.addAll_append]

theorem mem_attempts_append {r : Run} :
    d ∈ r.attempts (es ++ fs) ↔ d ∈ r.attempts es ∨ d ∈ (r.replay es).attempts fs := by
  induction es generalizing r with
  | nil => simp [attempts]
  | cons e es ih =>
    simp only [List.cons_append, attempts, List.mem_append, ih, replay_cons, or_assoc]

theorem exists_of_mem_attempts {r : Run} (h : d ∈ r.attempts es) :
    ∃ before e after, es = before ++ e :: after ∧ d ∈ (r.replay before).reports e := by
  induction es generalizing r with
  | nil => simp [attempts] at h
  | cons e es ih =>
    rcases List.mem_append.1 h with hd | hd
    · exact ⟨[], e, es, rfl, hd⟩
    · obtain ⟨before, f, after, rfl, hf⟩ := ih hd
      exact ⟨e :: before, f, after, rfl, hf⟩

theorem mem_attempts_of_mem_reports {r : Run} (h : d ∈ (r.replay before).reports e) :
    d ∈ r.attempts (before ++ e :: after) := by
  rw [mem_attempts_append]
  exact .inr (List.mem_append_left _ h)

theorem table_replay_of_forall {r : Run} (h : ∀ e ∈ es, ∀ s, e ≠ .declare s) :
    (r.replay es).checker.table = r.checker.table := by
  induction es generalizing r with
  | nil => rfl
  | cons e es ih =>
    rw [replay_cons, ih fun f hf => h f (List.mem_cons_of_mem e hf), table_step]
    cases e with
    | declare s => exact absurd rfl (h _ List.mem_cons_self s)
    | _ => rfl

/-- Two runs have the same brackets open and the same names declared. -/
structure Agrees (r r' : Run) : Prop where
  brackets : r.brackets = r'.brackets
  table : r.checker.table = r'.checker.table

theorem Agrees.reports (h : Agrees r r') (e : Event) : r.reports e = r'.reports e := by
  cases e <;>
    simp only [Run.reports, bracketReports, unclosedReports, Checker.declareFinding, h.brackets,
      h.table]

theorem Agrees.step (h : Agrees r r') (e : Event) : Agrees (r.step e) (r'.step e) := by
  rw [step_eq, step_eq]
  constructor
  · cases e <;> simp only [bracketsAfter, h.brackets]
  · cases e <;> simp only [tableAfter, h.table]

theorem Agrees.replay (h : Agrees r r') (es : List Event) :
    Agrees (r.replay es) (r'.replay es) := by
  induction es generalizing r r' with
  | nil => exact h
  | cons e es ih => exact ih (h.step e)

/-- What is recorded already has no influence on what is asked for. -/
theorem Agrees.attempts (h : Agrees r r') (es : List Event) : r.attempts es = r'.attempts es := by
  induction es generalizing r r' with
  | nil => rfl
  | cons e es ih => rw [Run.attempts, Run.attempts, h.reports, ih (h.step e)]

end Run

end PascalCheck
