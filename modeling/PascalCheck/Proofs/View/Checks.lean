import PascalCheck.Proofs.Checks
import PascalCheck.Proofs.Report
import PascalCheck.Proofs.View.Numerals
import PascalCheck.Proofs.View.Program

namespace PascalCheck
set_option autoImplicit true

def Finding.view (v : View) (f : Finding) : Finding := ⟨f.ok, f.causes.map (Cause.view v)⟩

def SymbolTable.view (v : View) (t : SymbolTable) : SymbolTable :=
  .ofList (t.symbols.map (Symbol.view v))

def Brackets.view (v : View) (bs : Brackets) : Brackets :=
  ⟨bs.frames.map fun f => ⟨f.bracket, v.line f.line⟩⟩

/-- The diagnostic without what is not kept. A message about brackets may name a line. -/
def Diagnostic.view (v : View) (d : Diagnostic) : Diagnostic where
  code := d.code
  line := v.line d.line
  message := if d.code = 116 ∧ v.keepsLayout = false then "" else v.text d.message

/-- The diagnostic is about something that is kept: an open string belongs to the layout. -/
def View.showsDiagnostic (v : View) (d : Diagnostic) : Bool :=
  (v.keepsLayout || d.code != 117) && (v.keepsIllegal || d.code != 118)

def View.diagnostics (v : View) (ds : List Diagnostic) : List Diagnostic :=
  (ds.filter v.showsDiagnostic).map (Diagnostic.view v)

namespace View

variable (v : View)

@[simp] theorem char_char (c : Char) : v.char (v.char c) = v.char c := by
  by_cases hk : v.keepsCase = true
  · simp [char, hk]
  · simp only [char, hk, if_false, Bool.false_eq_true]
    exact apply_toLower (by decide) c

@[simp] theorem text_text (s : String) : v.text (v.text s) = v.text s := by
  apply String.toList_injective
  simp

@[simp] theorem line_line (n : Int) : v.line (v.line n) = v.line n := by
  unfold line
  split <;> rfl

theorem showsDiagnostic_congr (h : Diagnostic.view v d = Diagnostic.view v d') :
    v.showsDiagnostic d = v.showsDiagnostic d' := by
  have hcode : (d.view v).code = (d'.view v).code := by rw [h]
  exact congrArg (fun code => (v.keepsLayout || code != 117) && (v.keepsIllegal || code != 118))
    hcode

@[simp] theorem diagnostics_append (ds es : List Diagnostic) :
    v.diagnostics (ds ++ es) = v.diagnostics ds ++ v.diagnostics es := by
  simp [diagnostics]

theorem diagnostics_map_congr {f g : α → Diagnostic}
    (h : ∀ x, (f x).view v = (g x).view v) (xs : List α) :
    v.diagnostics (xs.map f) = v.diagnostics (xs.map g) := by
  induction xs with
  | nil => rfl
  | cons x xs ih =>
    have hx : v.diagnostics [f x] = v.diagnostics [g x] := by
      simp only [diagnostics, List.filter_cons, List.filter_nil, v.showsDiagnostic_congr (h x)]
      split
      · rw [List.map_singleton, List.map_singleton, h x]
      · rfl
    have hsplit (f : α → Diagnostic) :
        v.diagnostics ((x :: xs).map f) = v.diagnostics [f x] ++ v.diagnostics (xs.map f) :=
      v.diagnostics_append [f x] (xs.map f)
    rw [hsplit, hsplit, hx, ih]

theorem mem_diagnostics {ds : List Diagnostic} :
    e ∈ v.diagnostics ds ↔ ∃ d ∈ ds, v.showsDiagnostic d = true ∧ d.view v = e := by
  simp [diagnostics, and_assoc]

end View

@[simp] theorem BracketFault.view_of_keepsLayout {v : View} (h : v.keepsLayout = true)
    (f : BracketFault) : f.view v = f := by
  cases f <;> simp [view, View.line, h]

@[simp] theorem Cause.code_view (v : View) (c : Cause) : (c.view v).code = c.code := by
  cases c <;> rfl

theorem Mismatch.text_view (v : View) (m : Mismatch) : v.text (m.view v).text = v.text m.text := by
  unfold text
  cases m <;> simp only [view, View.text_append, View.text_text]

theorem Cause.message_onLine (c : Cause) (m n : Int) :
    (c.onLine m).message = (c.onLine n).message := rfl

theorem Cause.text_message_view (v : View) (c : Cause) (n : Int)
    (h : c.code = 116 → v.keepsLayout = true) :
    v.text ((c.view v).onLine (v.line n)).message = v.text (c.onLine n).message := by
  cases c with
  | bracket f =>
    have hf : (bracket f).view v = .bracket f :=
      congrArg Cause.bracket (f.view_of_keepsLayout (h rfl))
    rw [hf, message_onLine _ _ n]
  | mismatch m =>
    have hm := m.text_view v
    simp only [view, onLine, Diagnostic.ofCode, Message.format, Message.template?, Message.fill,
      code, operands, Message.Operand.placed, List.map_cons, List.map_nil, View.text_append, hm]
  | _ =>
    simp only [view, onLine, Diagnostic.ofCode, Message.format, Message.template?, Message.fill,
      code, operands, Message.Operand.placed, List.map_cons, List.map_nil, View.text_append,
      View.text_text]

theorem Cause.onLine_view (v : View) (c : Cause) (n : Int) :
    ((c.view v).onLine (v.line n)).view v = (c.onLine n).view v := by
  have hcode : ((c.view v).onLine (v.line n)).code = (c.onLine n).code := c.code_view v
  have hline : v.line ((c.view v).onLine (v.line n)).line = v.line (c.onLine n).line :=
    v.line_line n
  simp only [Diagnostic.view, hcode, hline]
  split
  · rfl
  · rename_i h
    rw [c.text_message_view v n fun hb => by simpa [hb, code_onLine] using h]

theorem Cause.onLine_line (v : View) (c : Cause) (n : Int) :
    (c.onLine (v.line n)).view v = (c.onLine n).view v := by
  have hline : v.line (c.onLine (v.line n)).line = v.line (c.onLine n).line := v.line_line n
  rw [Diagnostic.view, hline, c.message_onLine (v.line n) n]
  rfl

namespace Finding

variable (v : View)

theorem andThen_view (f g : Finding) : (f.view v).andThen (g.view v) = (f.andThen g).view v := by
  by_cases hf : f.ok = true
  · simp [andThen, view, hf]
  · simp [andThen, view, hf]

theorem diagnostics_view (f : Finding) (n : Int) :
    v.diagnostics ((f.view v).diagnostics (v.line n)) = v.diagnostics (f.diagnostics n) := by
  have hcauses : (f.view v).diagnostics (v.line n) =
      f.causes.map fun c => (c.view v).onLine (v.line n) := List.map_map
  rw [hcauses]
  exact v.diagnostics_map_congr (fun c => c.onLine_view v n) f.causes

end Finding

@[simp] theorem ValueType.check_text (v : View) (type : ValueType) (text : String) :
    type.check (v.text text) = (type.check text).view v := by
  unfold ValueType.check
  rw [Numeral.parseDecimal_text, Numeral.classifyReal_text]
  cases type with
  | integer =>
    rcases Numeral.parseDecimal text with (_ | _) | n
    · rfl
    · rfl
    · dsimp only
      split <;> rfl
  | real => cases Numeral.classifyReal text <;> rfl
  | none => rfl
  | other index => rfl

@[simp] theorem Literal.check_view (v : View) (l : Literal) :
    (l.view v).check = l.check.view v :=
  ValueType.check_text v l.type l.text

namespace SymbolTable

variable (v : View) (t : SymbolTable)

theorem symbols_view : (t.view v).symbols = t.symbols.map (Symbol.view v) := rfl

@[simp] theorem lookup?_view (name : String) :
    (t.view v).lookup? (v.text name) = (t.lookup? name).map (Symbol.view v) := by
  have hkey (s : Symbol) : (s.view v).key = s.key := v.lower_text s.name
  have hsame : (fun s : Symbol => s.key == Text.lower name) ∘ Symbol.view v =
      fun s => s.key == Text.lower name := by
    funext s
    rw [Function.comp_apply, hkey]
  simp only [lookup?_eq_find?, symbols_view, View.lower_text, List.find?_map, hsame]

@[simp] theorem contains_view (name : String) :
    (t.view v).contains (v.text name) = t.contains name := by
  simp [contains]

@[simp] theorem insert_view (s : Symbol) : (t.view v).insert (s.view v) = (t.insert s).view v := by
  have hname : (t.view v).contains (s.view v).name = t.contains s.name := t.contains_view v s.name
  apply ext
  rw [symbols_view, symbols_insert, symbols_insert, hname, symbols_view]
  split
  · rfl
  · rw [List.map_append, List.map_singleton]

theorem checkDeclared_view (name : String) :
    (t.view v).checkDeclared (v.text name) = (t.checkDeclared name).view v := by
  unfold checkDeclared
  rw [contains_view]
  split <;> rfl

theorem checkTarget_view (s : Symbol) : checkTarget (s.view v) = (checkTarget s).view v := by
  unfold checkTarget
  cases hf : s.isFunction <;>
    simp [Symbol.view, hf, Finding.view, Finding.pass, Finding.fail, Cause.view]

theorem checkLiteralType_view (s : Symbol) (l : Literal) :
    checkLiteralType (s.view v) (l.view v) = (checkLiteralType s l).view v := by
  have hif : (l.view v).isReal = l.isReal ∧ (s.view v).type = s.type := ⟨rfl, rfl⟩
  unfold checkLiteralType
  rw [hif.1, hif.2]
  split <;> rfl

theorem checkAssign_view (name : String) (l : Literal) :
    (t.view v).checkAssign (v.text name) (l.view v) = (t.checkAssign name l).view v := by
  unfold checkAssign
  rw [lookup?_view, Literal.check_view]
  cases t.lookup? name with
  | none => rfl
  | some s =>
    have hcheck : (s.view v).type.check (l.view v).text = (s.type.check l.text).view v :=
      ValueType.check_text v s.type l.text
    simp only [Option.map_some, checkTarget_view, checkLiteralType_view, hcheck,
      Finding.andThen_view]

theorem checkSource_view (target source : Symbol) :
    checkSource (target.view v) (source.view v) = (checkSource target source).view v := by
  have htype (s : Symbol) : (s.view v).type = s.type := rfl
  unfold checkSource
  rw [htype, htype]
  split
  · rfl
  · split <;> rfl

theorem checkAssignName_view (target source : String) :
    (t.view v).checkAssignName (v.text target) (v.text source) =
      (t.checkAssignName target source).view v := by
  unfold checkAssignName
  rw [lookup?_view, lookup?_view]
  cases t.lookup? target with
  | none => cases t.lookup? source <;> rfl
  | some d =>
    cases t.lookup? source with
    | none => rfl
    | some s =>
      simp only [Option.map_some, checkTarget_view, checkSource_view, Finding.andThen_view]

end SymbolTable

@[simp] theorem Token.brackets_view (v : View) (t : Token) : (t.view v).brackets = t.brackets := by
  have hchar (c : Char) : BracketMark.ofChar? (v.char c) = BracketMark.ofChar? c :=
    v.apply_char (by decide) c
  unfold brackets
  rw [kind_view, lexeme_view, View.toList_text, List.filterMap_map]
  congr 2
  funext c
  exact hchar c

theorem Token.cause?_view (v : View) (t : Token) :
    (t.view v).cause? = t.cause?.map (Cause.view v) := by
  unfold cause?
  rw [kind_view, isReal_view, lexeme_view, Numeral.classifyReal_text]
  split
  · rfl
  · split <;> rfl

namespace Brackets

variable (v : View) (bs : Brackets)

theorem meet_view (line : Nat) (m : BracketMark) :
    (bs.view v).meet (v.line line) m = ((bs.meet line m).1.view v, (bs.meet line m).2) := by
  obtain ⟨frames⟩ := bs
  cases m with
  | opening b => rfl
  | closing b => cases frames <;> rfl

theorem meetAll_view (line : Nat) (ms : List BracketMark) :
    (bs.view v).meetAll (v.line line) ms =
      ((bs.meetAll line ms).1.view v, (bs.meetAll line ms).2) := by
  induction ms generalizing bs with
  | nil => rfl
  | cons m ms ih => simp [meetAll, meet_view, ih]

theorem unclosed_view :
    (bs.view v).unclosed = bs.unclosed.map fun f => (v.line f.1, f.2.view v) := by
  simp [unclosed, view, BracketFault.view, Function.comp_def]

end Brackets

theorem Token.reports_view (v : View) (t : Token) :
    v.diagnostics (t.view v).reports = v.diagnostics t.reports := by
  simp only [Token.reports, Token.cause?_view, Token.line_view, View.cast_line]
  cases t.cause? with
  | none => rfl
  | some c => exact v.diagnostics_map_congr (fun c => c.onLine_view v t.line) [c]

namespace Run

/-- The second run has the brackets and the names of the first as they look. -/
structure Seen (v : View) (r r' : Run) : Prop where
  brackets : r'.brackets = r.brackets.view v
  table : r'.checker.table = r.checker.table.view v

theorem seen_fresh (v : View) : Seen v fresh fresh := ⟨rfl, rfl⟩

theorem Seen.unclosedReports (h : Seen v r r') :
    v.diagnostics r'.unclosedReports = v.diagnostics r.unclosedReports := by
  have hreports : r'.unclosedReports = r.brackets.unclosed.map fun f =>
      ((Cause.bracket f.2).view v).onLine (v.line (f.1 : Int)) := by
    simp [Run.unclosedReports, h.brackets, Brackets.unclosed_view, Cause.view]
  rw [hreports]
  apply v.diagnostics_map_congr
  intro f
  exact Cause.onLine_view v (.bracket f.2) f.1

theorem Seen.bracketReports (h : Seen v r r') (t : Token) :
    v.diagnostics (r'.bracketReports (t.view v)) = v.diagnostics (r.bracketReports t) := by
  simp only [Run.bracketReports, h.brackets, Token.line_view, Token.brackets_view,
    Brackets.meetAll_view, View.cast_line]
  apply v.diagnostics_map_congr
  intro f
  exact Cause.onLine_line v (.bracket f) t.line

theorem unterminated_view (v : View) (openQuote : Option Nat) :
    v.diagnostics ((v.openQuote openQuote).toList.map fun n : Nat =>
        Cause.unterminatedString.onLine n) =
      v.diagnostics (openQuote.toList.map fun n : Nat => Cause.unterminatedString.onLine n) := by
  by_cases hk : v.keepsLayout = true
  · simp [View.openQuote, hk]
  · cases openQuote with
    | none => simp [View.openQuote]
    | some n =>
      simp [View.openQuote, hk, View.diagnostics, View.showsDiagnostic, Cause.code_onLine,
        Cause.code]

theorem Seen.reports (h : Seen v r r') (e : Event) :
    v.diagnostics (r'.reports (e.view v)) = v.diagnostics (r.reports e) := by
  cases e with
  | scanned t =>
    simp only [Event.view, Run.reports, View.diagnostics_append, h.bracketReports,
      Token.reports_view]
  | ended openQuote =>
    simp only [Event.view, Run.reports, View.diagnostics_append, unterminated_view,
      h.unclosedReports]
  | balance => exact h.unclosedReports
  | literal l line =>
    simp only [Event.view, Run.reports, Literal.check_view, View.cast_line]
    exact l.check.diagnostics_view v line
  | fault cause line =>
    simp only [Event.view, Run.reports, View.cast_line]
    exact v.diagnostics_map_congr (fun c => c.onLine_view v line) [cause]
  | declare s =>
    have hfinding : r'.checker.declareFinding (s.view v) =
        (r.checker.declareFinding s).view v := by
      have hname : r'.checker.table.contains (s.view v).name = r.checker.table.contains s.name := by
        rw [h.table]
        exact r.checker.table.contains_view v s.name
      unfold Checker.declareFinding
      rw [hname]
      split <;> rfl
    simp only [Event.view, Run.reports, hfinding]
    exact Finding.diagnostics_view v _ s.line
  | use name line =>
    simp only [Event.view, Run.reports, h.table, SymbolTable.checkDeclared_view, View.cast_line]
    exact Finding.diagnostics_view v _ line
  | assign name l line =>
    simp only [Event.view, Run.reports, h.table, SymbolTable.checkAssign_view, View.cast_line]
    exact Finding.diagnostics_view v _ line
  | assignName target source line =>
    simp only [Event.view, Run.reports, h.table, SymbolTable.checkAssignName_view, View.cast_line]
    exact Finding.diagnostics_view v _ line

theorem Seen.step (h : Seen v r r') (e : Event) : Seen v (r.step e) (r'.step (e.view v)) := by
  rw [step_eq, step_eq]
  constructor
  · cases e with
    | scanned t =>
      simp only [Event.view, bracketsAfter, h.brackets, Token.line_view, Token.brackets_view,
        Brackets.meetAll_view]
    | ended openQuote => rfl
    | balance => rfl
    | _ => exact h.brackets
  · cases e with
    | declare s => simp only [Event.view, tableAfter, h.table, SymbolTable.insert_view]
    | _ => exact h.table

theorem exists_of_hidden {v : View} (h : v.showsEvent e = false) :
    v.keepsIllegal = false ∧ ∃ t, e = .scanned t ∧ t.kind = .unknown := by
  cases e with
  | scanned t =>
    obtain ⟨hi, hk⟩ : v.keepsIllegal = false ∧ t.kind = .unknown := by
      simpa [View.showsEvent, View.shows] using h
    exact ⟨hi, t, rfl, hk⟩
  | _ => cases h

/-- An illegal character opens no bracket and declares no name. -/
theorem Seen.step_hidden (h : Seen v r r') (he : v.showsEvent e = false) :
    Seen v (r.step e) r' := by
  obtain ⟨-, t, rfl, hk⟩ := exists_of_hidden he
  rw [step_eq]
  constructor
  · simp only [bracketsAfter, Token.brackets, hk, reduceCtorEq, if_false, Brackets.meetAll]
    exact h.brackets
  · exact h.table

theorem reports_hidden {v : View} {r : Run} (he : v.showsEvent e = false) :
    v.diagnostics (r.reports e) = [] := by
  obtain ⟨hi, t, rfl, hk⟩ := exists_of_hidden he
  have hbrackets : r.bracketReports t = [] := by
    simp [bracketReports, Token.brackets, hk, Brackets.meetAll]
  have htoken : t.reports = [(Cause.invalidCharacter t.lexeme).onLine t.line] := by
    simp [Token.reports, Token.cause?, hk]
  rw [reports, hbrackets, htoken]
  simp [View.diagnostics, View.showsDiagnostic, hi, Cause.code_onLine, Cause.code]

theorem Seen.replay (h : Seen v r r') (es : List Event) :
    Seen v (r.replay es) (r'.replay (v.events es)) := by
  induction es generalizing r r' with
  | nil => exact h
  | cons e es ih =>
    by_cases he : v.showsEvent e = true
    · rw [View.events_cons v he]
      exact ih (h.step e)
    · have hhidden : v.showsEvent e = false := Bool.eq_false_iff.2 he
      rw [View.events_hidden v hhidden]
      exact ih (h.step_hidden hhidden)

theorem Seen.attempts (h : Seen v r r') (es : List Event) :
    v.diagnostics (r'.attempts (v.events es)) = v.diagnostics (r.attempts es) := by
  -- The sinks of the two runs may differ: they drop other repetitions, and no check reads them.
  induction es generalizing r r' with
  | nil => rfl
  | cons e es ih =>
    rw [Run.attempts, View.diagnostics_append]
    by_cases he : v.showsEvent e = true
    · rw [View.events_cons v he, Run.attempts, View.diagnostics_append, h.reports, ih (h.step e)]
    · have hhidden : v.showsEvent e = false := Bool.eq_false_iff.2 he
      rw [View.events_hidden v hhidden, reports_hidden hhidden, ih (h.step_hidden hhidden)]
      rfl

end Run

section Same

variable {v : View} {a b : List UInt8} {o o' : Options}

/-- Sources that look the same have trees that look the same. -/
theorem View.program_eq (h : (Scan.ofBytes a).view v = (Scan.ofBytes b).view v) :
    (analyze a o).program.view v = (analyze b o').program.view v := by
  have hp := congrArg Program.ofScan h
  rw [Program.ofScan_view, Program.ofScan_view] at hp
  rw [program_analyze, program_analyze]
  exact congrArg Prod.fst hp

theorem View.trace_eq (h : (Scan.ofBytes a).view v = (Scan.ofBytes b).view v) :
    v.events (trace a) = v.events (trace b) := by
  have hp := congrArg Program.ofScan h
  rw [Program.ofScan_view, Program.ofScan_view] at hp
  exact congrArg Prod.snd hp

/-- Sources that look the same declare names that look the same. -/
theorem View.symbols_eq (h : (Scan.ofBytes a).view v = (Scan.ofBytes b).view v) :
    (analyze a o).symbols.map (Symbol.view v) = (analyze b o').symbols.map (Symbol.view v) := by
  have ha := ((Run.seen_fresh v).replay (trace a)).table
  have hb := ((Run.seen_fresh v).replay (trace b)).table
  rw [View.trace_eq h, hb] at ha
  rw [symbols_analyze, symbols_analyze]
  exact (congrArg SymbolTable.symbols ha).symm

/-- Sources that look the same ask for diagnostics that look the same. -/
theorem View.attempts_eq (h : (Scan.ofBytes a).view v = (Scan.ofBytes b).view v) :
    v.diagnostics (Run.fresh.attempts (trace a)) =
      v.diagnostics (Run.fresh.attempts (trace b)) := by
  rw [← (Run.seen_fresh v).attempts (trace a), ← (Run.seen_fresh v).attempts (trace b),
    View.trace_eq h]

theorem View.exists_mem_diagnostics (h : (Scan.ofBytes a).view v = (Scan.ofBytes b).view v)
    (ho : o.maxDiagnostics ≤ 0) (ho' : o'.maxDiagnostics ≤ 0)
    (hd : d ∈ (analyze a o).diagnostics) (hs : v.showsDiagnostic d = true) :
    ∃ d' ∈ (analyze b o').diagnostics, d'.view v = d.view v := by
  have hview : d.view v ∈ v.diagnostics (Run.fresh.attempts (trace a)) :=
    v.mem_diagnostics.2 ⟨d, (mem_diagnostics_analyze ho).1 hd, hs, rfl⟩
  rw [View.attempts_eq h] at hview
  obtain ⟨d', hd', -, hlook⟩ := v.mem_diagnostics.1 hview
  exact ⟨d', (mem_diagnostics_analyze ho').2 hd', hlook⟩

end Same

end PascalCheck
