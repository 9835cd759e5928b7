import PascalCheck.Proofs.Names
import PascalCheck.Proofs.SymbolTables

namespace PascalCheck
set_option autoImplicit true

/-- A declaration of a tree. -/
inductive Declaration where
  | var (v : VarDecl)
  | routine (r : Routine)

namespace Declaration

/-- The name of a variable, or the first word of a routine. -/
def token : Declaration → Token
  | .var v => v.token
  | .routine r => r.token

def symbol : Declaration → Symbol
  | .var v =>
    { name := v.name, type := v.type, isFunction := false, line := v.token.line, params := [] }
  | .routine r =>
    { name := r.name, type := r.result, isFunction := true, line := r.token.line,
      params := r.params }

def var? : Declaration → Option VarDecl
  | .var v => some v
  | .routine _ => none

def routine? : Declaration → Option Routine
  | .var _ => none
  | .routine r => some r

def FitsToken : Declaration → Prop
  | .var v => v.token.kind = .ident ∧ v.token.lexeme = v.name
  | .routine r =>
    (r.token.is Code.functionWord = true ∨ r.token.is Code.procedureWord = true) ∧
      r.isFunction = r.token.is Code.functionWord

@[simp] theorem filterMap_var?_var (vs : List VarDecl) :
    (vs.map var).filterMap var? = vs := by
  induction vs with
  | nil => rfl
  | cons v vs ih => exact congrArg (v :: ·) ih

@[simp] theorem filterMap_var?_routine (rs : List Routine) :
    (rs.map routine).filterMap var? = [] := by
  induction rs with
  | nil => rfl
  | cons r rs ih => exact ih

@[simp] theorem filterMap_routine?_var (vs : List VarDecl) :
    (vs.map var).filterMap routine? = [] := by
  induction vs with
  | nil => rfl
  | cons v vs ih => exact ih

@[simp] theorem filterMap_routine?_routine (rs : List Routine) :
    (rs.map routine).filterMap routine? = rs := by
  induction rs with
  | nil => rfl
  | cons r rs ih => exact congrArg (r :: ·) ih

end Declaration

/-- The declarations of a program in the order in which their tokens stand in a list. -/
structure Program.Declares (p : Program) (tokens : List Token) (ds : List Declaration) : Prop where
  vars : ds.filterMap Declaration.var? = p.vars
  routines : ds.filterMap Declaration.routine? = p.routines
  inOrder : (ds.map Declaration.token).Sublist tokens
  fits : ∀ d ∈ ds, d.FitsToken

def Event.symbol? : Event → Option Symbol
  | .declare s => some s
  | _ => none

/-- The table after a run has the first of the symbols declared for each name. -/
theorem Run.table_replay (r : Run) (es : List Event) :
    (r.replay es).checker.table = r.checker.table.insertAll (es.filterMap Event.symbol?) := by
  induction es generalizing r with
  | nil => rfl
  | cons e es ih =>
    rw [replay_cons, ih, table_step]
    cases e <;> rfl

theorem eq_declare_of_code (he : e ∈ trace source) {r : Run} (hd : d ∈ r.reports e)
    (hcode : d.code = 113) : ∃ s, e = .declare s := by
  obtain ⟨c, n, hmay, rfl⟩ := Run.exists_of_mem_reports hd
  obtain ⟨name, rfl⟩ : ∃ name, c = .duplicate name := by
    cases c with
    | duplicate name => exact ⟨name, rfl⟩
    | _ => exact absurd hcode (by simp [Cause.code_onLine, Cause.code])
  cases e with
  | declare s => exact ⟨s, rfl⟩
  | fault c n' =>
    obtain rfl : c = .duplicate name := by simpa [Event.mayReport] using hmay
    exact absurd (isGrammatical_of_fault he) Bool.false_ne_true
  | _ => exact absurd hmay Bool.false_ne_true

theorem Run.reports_declare (r : Run) (s : Symbol) :
    r.reports (.declare s) =
      if r.checker.table.contains s.name then [(Cause.duplicate s.name).onLine s.line] else [] := by
  simp only [reports, Checker.declareFinding]
  split <;> rfl

theorem exists_declare_of_symbols (h : es.filterMap Event.symbol? = xs ++ s :: ys) :
    ∃ before after, es = before ++ .declare s :: after ∧ before.filterMap Event.symbol? = xs := by
  obtain ⟨front, back, rfl, rfl, hback⟩ := List.filterMap_eq_append_iff.1 h
  obtain ⟨quiet, e, after, rfl, hquiet, he, -⟩ := List.filterMap_eq_cons_iff.1 hback
  obtain rfl : e = .declare s := by
    cases e <;> simp_all [Event.symbol?]
  refine ⟨front ++ quiet, after, by simp, ?_⟩
  rw [List.filterMap_append, List.filterMap_eq_nil_iff.2 hquiet, List.append_nil]

theorem mem_attempts_duplicate_iff :
    d ∈ Run.fresh.attempts (trace source) ∧ d.code = 113 ↔
      ∃ xs s ys, (trace source).filterMap Event.symbol? = xs ++ s :: ys ∧
        (∃ x ∈ xs, x.key = s.key) ∧ d = (Cause.duplicate s.name).onLine s.line := by
  have hcontains (es : List Event) (s : Symbol) :
      (Run.fresh.replay es).checker.table.contains s.name = true ↔
        ∃ x ∈ es.filterMap Event.symbol?, x.key = s.key := by
    rw [Run.table_replay, SymbolTable.contains_insertAll]
    exact ⟨fun h => h.resolve_left Bool.false_ne_true, .inr⟩
  constructor
  · rintro ⟨hd, hcode⟩
    obtain ⟨before, e, after, htrace, hr⟩ := Run.exists_of_mem_attempts hd
    have hmem : e ∈ trace source := by simp [htrace]
    obtain ⟨s, rfl⟩ := eq_declare_of_code hmem hr hcode
    rw [Run.reports_declare] at hr
    split at hr
    · rename_i hname
      refine ⟨_, s, after.filterMap Event.symbol?, ?_, (hcontains before s).1 hname,
        List.mem_singleton.1 hr⟩
      rw [htrace, List.filterMap_append, List.filterMap_cons]
      rfl
    · cases hr
  · rintro ⟨xs, s, ys, hsymbols, hname, rfl⟩
    obtain ⟨before, after, htrace, rfl⟩ := exists_declare_of_symbols hsymbols
    refine ⟨?_, rfl⟩
    rw [htrace]
    apply Run.mem_attempts_of_mem_reports
    rw [Run.reports_declare, if_pos ((hcontains before s).2 hname)]
    exact List.mem_singleton_self _

namespace Reader

/-- The symbols declared so far and those to come. -/
def symbols (s : Reader) : List Symbol := s.story.filterMap Event.symbol?

/-- The tokens ahead declare nothing by themselves. -/
def Undeclaring (s : Reader) : Prop := ∀ e ∈ s.upcoming, e.symbol? = none

theorem symbols_advance (h : here? s = some t) : s.advance.symbols = s.symbols := by
  rw [symbols, story_advance h, symbols]

theorem symbols_emit_of_none (s : Reader) (he : e.symbol? = none) :
    (s.emit e).symbols = s.symbols := by
  rw [symbols, story_emit, List.filterMap_append, List.filterMap_cons, he, symbols, story,
    List.filterMap_append]

theorem symbols_emit_declare (h : Undeclaring s) (symbol : Symbol) :
    (s.emit (.declare symbol)).symbols = s.symbols ++ [symbol] := by
  have hnone : s.upcoming.filterMap Event.symbol? = [] := List.filterMap_eq_nil_iff.2 h
  rw [symbols, story_emit, List.filterMap_append, List.filterMap_cons, hnone, symbols, story,
    List.filterMap_append, hnone, List.append_nil]
  rfl

theorem Reads.symbols_eq (h : Reads P s s') (hP : ∀ u e, P u e → e.symbol? = none) :
    s'.symbols = s.symbols := by
  refine h.invariant (I := fun u => u.symbols = s.symbols) rfl ?_ ?_
  · intro u t ht hu
    rw [symbols_advance ht, hu]
  · intro u e he hu
    rw [symbols_emit_of_none u (hP u e he), hu]

theorem Complaint.symbol? (h : Complaint s e) : e.symbol? = none := by
  cases h <;> rfl

theorem Checking.symbol? (h : Checking s e) : e.symbol? = none := by
  cases h with
  | complaint h => exact h.symbol?
  | _ => rfl

theorem symbols_skipBody (s : Reader) : s.skipBody.symbols = s.symbols :=
  (reads_skipBody s).symbols_eq fun _ _ h => h.symbol?

theorem symbols_params (s : Reader) : s.params.2.symbols = s.symbols :=
  (reads_params s).symbols_eq fun _ _ h => h.symbol?

/-- Between two readers some declarations are read and declared, in the order of their tokens. -/
structure Declares (s : Reader) (ds : List Declaration) (s' : Reader) : Prop where
  taken : ∃ ts, s.tokens = ts ++ s'.tokens ∧ (ds.map Declaration.token).Sublist ts
  fits : ∀ d ∈ ds, d.FitsToken
  upcoming : s'.upcoming ⊆ s.upcoming
  symbols : s.Undeclaring → s'.symbols = s.symbols ++ ds.map Declaration.symbol

namespace Declares

theorem undeclaring (h : Declares s ds s') (hs : s.Undeclaring) : s'.Undeclaring :=
  fun e he => hs e (h.upcoming he)

theorem trans (h : Declares s ds s') (k : Declares s' ds' s'') : Declares s (ds ++ ds') s'' := by
  obtain ⟨ts, hts, hsub⟩ := h.taken
  obtain ⟨us, hus, hsub'⟩ := k.taken
  refine ⟨⟨ts ++ us, by rw [hts, hus, List.append_assoc], ?_⟩, ?_,
    List.Subset.trans k.upcoming h.upcoming, ?_⟩
  · rw [List.map_append]
    exact hsub.append hsub'
  · intro d hd
    rcases List.mem_append.1 hd with hd | hd
    · exact h.fits d hd
    · exact k.fits d hd
  · intro hs
    rw [k.symbols (h.undeclaring hs), h.symbols hs, List.map_append, List.append_assoc]

theorem of_reads (h : Reads P s s') (hP : ∀ u e, P u e → e.symbol? = none) : Declares s [] s' := by
  obtain ⟨ts, hts⟩ := h.tokens_suffix
  refine ⟨⟨ts, hts.symm, List.nil_sublist ts⟩, by simp, h.upcoming_subset, ?_⟩
  intro _
  rw [h.symbols_eq hP, List.map_nil, List.append_nil]

theorem of_complaints (h : Reads Complaint s s') : Declares s [] s' :=
  .of_reads h fun _ _ hc => hc.symbol?

end Declares

theorem YieldsNames.taken (h : YieldsNames s xs s') :
    (∃ ts, s.tokens = ts ++ s'.tokens ∧ xs.Sublist ts) ∧ ∀ x ∈ xs, x.kind = .ident := by
  induction h with
  | last hs hk => exact ⟨⟨_, tokens_of_here? hs, .refl _⟩, List.forall_mem_singleton.2 hk⟩
  | cons hs hk hc _ ih =>
    obtain ⟨⟨ts, hts, hsub⟩, hkind⟩ := ih
    obtain ⟨c, vs, hs', -⟩ := sees_iff.1 hc
    refine ⟨⟨_ :: c :: ts, ?_, .cons_cons _ (hsub.cons c)⟩, List.forall_mem_cons.2 ⟨hk, hkind⟩⟩
    rw [tokens_of_here? hs, tokens_of_here? (here?_of_tokens hs'), hts]
    rfl

theorem undeclaring_emit (h : Undeclaring s) (e : Event) : (s.emit e).Undeclaring := h

theorem symbols_declareAll (h : Undeclaring s) (symbols : List Symbol) :
    (s.declareAll symbols).symbols = s.symbols ++ symbols := by
  induction symbols generalizing s with
  | nil => simp [declareAll]
  | cons symbol symbols ih =>
    have hrest := ih (undeclaring_emit h (.declare symbol))
    rw [symbols_emit_declare h, List.append_assoc] at hrest
    exact hrest

theorem upcoming_declareAll (s : Reader) (symbols : List Symbol) :
    (s.declareAll symbols).upcoming = s.upcoming := by
  induction symbols generalizing s with
  | nil => rfl
  | cons symbol symbols ih => exact ih _

theorem declares_variableLine (s : Reader) :
    Declares s ((variableLine s).1.map .var) (variableLine s).2 := by
  unfold variableLine
  split
  · rename_i s₁ hn
    exact .of_complaints ((reads_of_names hn).trans (reads_synchronize s₁))
  · rename_i xs s₁ hn
    split
    · rename_i s₂ ha
      have htype := reads_of_typeAnnotation ha
      exact .of_complaints ((reads_of_names hn).trans (htype.trans (reads_synchronize s₂)))
    · rename_i type s₂ ha
      obtain ⟨⟨ts, hts, hsub⟩, hkind⟩ := (yieldsNames hn).taken
      have htype := reads_of_typeAnnotation ha
      have hfront := (reads_of_names hn).trans htype
      obtain ⟨us, hus⟩ := htype.tokens_suffix
      generalize hvars : (xs.map fun t => VarDecl.mk t t.lexeme type) = vars
      have hdeclared : Declares s (vars.map .var)
          (s₂.declareAll (vars.map VarDecl.symbol)) := by
        subst hvars
        refine ⟨⟨ts ++ us, ?_, ?_⟩, ?_, ?_, ?_⟩
        · rw [tokens_declareAll, hts, ← hus, List.append_assoc]
        · rw [List.map_map, List.map_map]
          exact (List.map_id'' (fun _ => rfl) xs).symm ▸ hsub.trans (List.sublist_append_left ts us)
        · intro d hd
          simp only [List.map_map, List.mem_map] at hd
          obtain ⟨x, hx, rfl⟩ := hd
          exact ⟨hkind x hx, rfl⟩
        · rw [upcoming_declareAll]
          exact hfront.upcoming_subset
        · intro hs
          rw [symbols_declareAll fun e he => hs e (hfront.upcoming_subset he),
            hfront.symbols_eq fun _ _ h => h.symbol?, List.map_map, List.map_map, List.map_map]
          rfl
      have hlast := hdeclared.trans (.of_complaints (reads_expectSemicolon _))
      rwa [List.append_nil] at hlast

theorem declares_variableSection (s : Reader) :
    Declares s ((variableSection s).1.map .var) (variableSection s).2 := by
  fun_induction variableSection s with
  | case1 s h line more ih =>
    rw [List.map_append]
    exact (declares_variableLine s).trans ih
  | case2 => exact .of_complaints .refl

/-- A routine is declared with its first word; its parameters and its body declare nothing. -/
theorem declares_namedRoutine (hs : here? s = some w)
    (hw : w.is Code.functionWord = true ∨ w.is Code.procedureWord = true)
    (hname : s.advance.here? = some name) :
    Declares s [.routine (namedRoutine w name s.advance.advance).1]
      (namedRoutine w name s.advance.advance).2 := by
  rw [namedRoutine_eq, headerEnd]
  generalize hnode : headerNode w name s.advance.advance = r
  generalize hheader : (resultType (w.is Code.functionWord) s.advance.advance.params.2).2 = s₁
  have hfront : Reads Complaint s.advance s₁ := by
    rw [← hheader]
    exact .take hname ((reads_params _).trans (reads_resultType _ _))
  have hback : Declares (s₁.emit (.declare r.symbol)) []
      (s₁.emit (.declare r.symbol)).expectSemicolon.skipBodyIfThere :=
    .of_complaints ((reads_expectSemicolon _).trans (reads_skipBodyIfThere _))
  have hdeclared : Declares s [.routine r] (s₁.emit (.declare r.symbol)) := by
    obtain ⟨ts, hts⟩ := hfront.tokens_suffix
    have hall := (Reads.take hs hfront)
    refine ⟨⟨w :: ts, ?_, ?_⟩, ?_, hall.upcoming_subset, ?_⟩
    · rw [tokens_of_here? hs, ← hts]
      rfl
    · rw [← hnode]
      exact .cons_cons w (List.nil_sublist ts)
    · intro d hd
      obtain rfl := List.mem_singleton.1 hd
      rw [← hnode]
      exact ⟨hw, rfl⟩
    · intro hundeclared
      rw [symbols_emit_declare fun e he => hundeclared e (hall.upcoming_subset he),
        hall.symbols_eq fun _ _ h => h.symbol?]
      rfl
  have hlast := hdeclared.trans hback
  rwa [List.append_nil] at hlast

theorem declares_routine (hs : here? s = some w)
    (hw : w.is Code.functionWord = true ∨ w.is Code.procedureWord = true) :
    Declares s ((routine w s.advance).1.toList.map .routine) (routine w s.advance).2 := by
  have hfail : Declares s [] (s.advance.unexpected .routineName).synchronize.skipBodyIfThere :=
    .of_complaints (.take hs ((reads_unexpected _ _).trans
      ((reads_synchronize _).trans (reads_skipBodyIfThere _))))
  unfold routine
  split
  · exact hfail
  rename_i t ht
  split
  · exact declares_namedRoutine hs hw ht
  · exact hfail

theorem declares_declarations (s : Reader) :
    ∃ ds : List Declaration, ds.filterMap Declaration.var? = (declarations s).1.1 ∧
      ds.filterMap Declaration.routine? = (declarations s).1.2 ∧
      Declares s ds (declarations s).2 := by
  fun_induction declarations s with
  | case1 s h => exact ⟨[], rfl, rfl, .of_complaints .refl⟩
  | case2 s t h hv vars more ih =>
    obtain ⟨ds, hvars, hroutines, hds⟩ := ih
    have hword : Declares s [] s.advance := .of_complaints (.advance ⟨t, h⟩)
    refine ⟨vars.1.map .var ++ ds, ?_, ?_,
      hword.trans ((declares_variableSection s.advance).trans hds)⟩
    · rw [List.filterMap_append, Declaration.filterMap_var?_var, hvars]
    · rw [List.filterMap_append, Declaration.filterMap_routine?_var, hroutines]
      rfl
  | case3 s t h hv hr first more ih =>
    obtain ⟨ds, hvars, hroutines, hds⟩ := ih
    refine ⟨first.1.toList.map .routine ++ ds, ?_, ?_,
      (declares_routine h (by simpa using hr)).trans hds⟩
    · rw [List.filterMap_append, Declaration.filterMap_var?_routine, hvars]
      rfl
    · rw [List.filterMap_append, Declaration.filterMap_routine?_routine, hroutines]
  | case4 s t h hv hr => exact ⟨[], rfl, rfl, .of_complaints .refl⟩

theorem declares_program (hs : Sound s) :
    ∃ ds, s.program.1.Declares s.tokens ds ∧
      (s.Undeclaring → s.program.2.symbols = s.symbols ++ ds.map Declaration.symbol) := by
  obtain ⟨ds, hvars, hroutines, hds⟩ := declares_declarations s.header.2
  have hheader : Declares s [] s.header.2 := .of_complaints (reads_header s)
  have hbody : Declares s.declared [] s.program.2 :=
    .of_reads (reads_body hs) fun _ _ h => h.symbol?
  have hall := hheader.trans (hds.trans hbody)
  rw [List.nil_append, List.append_nil] at hall
  obtain ⟨ts, hts, hsub⟩ := hall.taken
  refine ⟨ds, ⟨hvars, hroutines, ?_, hall.fits⟩, hall.symbols⟩
  rw [hts]
  exact hsub.trans (List.sublist_append_left ts _)

end Reader

theorem Scan.symbols_ofScan (scan : Scan) :
    (Reader.ofScan scan).symbols = [] ∧ (Reader.ofScan scan).Undeclaring := by
  have hnone : ∀ e ∈ (Reader.ofScan scan).story, e.symbol? = none := by
    intro e he
    rcases Reader.isScan_of_mem_start he with ⟨t, rfl⟩ | ⟨l, n, rfl⟩ | ⟨q, rfl⟩ <;> rfl
  exact ⟨List.filterMap_eq_nil_iff.2 hnone,
    fun e he => hnone e (List.mem_append_right _ he)⟩

theorem exists_declarations (source : List UInt8) (o : Options) :
    ∃ ds, (analyze source o).program.Declares (tokenize source).1 ds ∧
      (trace source).filterMap Event.symbol? = ds.map Declaration.symbol := by
  obtain ⟨ds, hds, hsymbols⟩ := Reader.declares_program (Reader.sound_ofScan source)
  obtain ⟨hnil, hundeclaring⟩ := Scan.symbols_ofScan (Scan.ofBytes source)
  have htokens : (Reader.ofScan (Scan.ofBytes source)).tokens.Sublist (tokenize source).1 := by
    rw [Reader.tokens_ofScan]
    exact List.filter_sublist
  rw [program_analyze]
  refine ⟨ds, ⟨hds.vars, hds.routines, hds.inOrder.trans htokens, hds.fits⟩, ?_⟩
  have hread := hsymbols hundeclaring
  rw [hnil, List.nil_append] at hread
  rw [← story_readerAtEnd]
  exact hread

theorem symbols_eq_firsts (source : List UInt8) (o : Options) :
    (analyze source o).symbols =
      ((trace source).filterMap Event.symbol?).eraseDupsBy Symbol.sharesName := by
  have hall : ∀ ss : List Symbol, (ss.filter fun s => !SymbolTable.empty.contains s.name) = ss :=
    fun ss => List.filter_eq_self.2 fun s _ => rfl
  rw [symbols_analyze, Run.table_replay]
  exact (SymbolTable.symbols_insertAll .empty _).trans (by rw [hall]; rfl)

/-- The symbols of a source are the first declarations of each name in its tree, and a repeated
name is reported once for each declaration that repeats it. Neither a body that is skipped nor a
list of parameters declares anything. -/
theorem symbols_are_first_declarations (source : List UInt8) (o : Options) :
    ∃ ds, (analyze source o).program.Declares (tokenize source).1 ds ∧
      (analyze source o).symbols = (ds.map Declaration.symbol).eraseDupsBy Symbol.sharesName ∧
      (o.maxDiagnostics ≤ 0 → ∀ d, d ∈ (analyze source o).diagnostics ∧ d.code = 113 ↔
        ∃ before x after, ds = before ++ x :: after ∧ (∃ y ∈ before, y.symbol.key = x.symbol.key) ∧
          d = (Cause.duplicate x.symbol.name).onLine x.symbol.line) ∧
      ∀ s : Reader, s.skipBody.symbols = s.symbols ∧ s.params.2.symbols = s.symbols := by
  obtain ⟨ds, hds, hsymbols⟩ := exists_declarations source o
  refine ⟨ds, hds, ?_, ?_, fun s => ⟨s.symbols_skipBody, s.symbols_params⟩⟩
  · rw [symbols_eq_firsts, hsymbols]
  · intro h d
    rw [mem_diagnostics_analyze h, mem_attempts_duplicate_iff, hsymbols]
    constructor
    · rintro ⟨xs, s, ys, hsplit, hname, rfl⟩
      obtain ⟨before, rest, rfl, rfl, hrest⟩ := List.map_eq_append_iff.1 hsplit
      obtain ⟨x, after, rfl, rfl, -⟩ := List.map_eq_cons_iff.1 hrest
      obtain ⟨_, hmem, hkey⟩ := hname
      obtain ⟨y, hy, rfl⟩ := List.mem_map.1 hmem
      exact ⟨before, x, after, rfl, ⟨y, hy, hkey⟩, rfl⟩
    · rintro ⟨before, x, after, rfl, ⟨y, hy, hkey⟩, rfl⟩
      exact ⟨before.map Declaration.symbol, x.symbol, after.map Declaration.symbol, by simp,
        ⟨y.symbol, List.mem_map_of_mem hy, hkey⟩, rfl⟩

/-- A source that declares two names again in another case, once in a body and once for a
parameter, where they do not count, and once after them. -/
def repeatedNames : List UInt8 :=
  "var a, b: integer;\nprocedure p(b: real);\nvar a: real; begin end;\nvar A: real; begin end.".toUTF8.toList

theorem symbols_are_first_declarations_repeatedNames :
    (0 : Int) ≤ 0 ∧ ∃ before x after,
      (analyze repeatedNames ⟨false, 0⟩).program.Declares (tokenize repeatedNames).1
        (before ++ x :: after) ∧ (∃ y ∈ before, y.symbol.key = x.symbol.key) ∧
      (Cause.duplicate "A").onLine 4 = (Cause.duplicate x.symbol.name).onLine x.symbol.line := by
  refine ⟨Int.le_refl 0, ?_⟩
  obtain ⟨ds, hds, -, hduplicates, -⟩ := symbols_are_first_declarations repeatedNames ⟨false, 0⟩
  obtain ⟨before, x, after, rfl, hname, hd⟩ :=
    (hduplicates (Int.le_refl 0) ((Cause.duplicate "A").onLine 4)).1 ⟨by decide +kernel, rfl⟩
  exact ⟨before, x, after, hds, hname, hd⟩

end PascalCheck
