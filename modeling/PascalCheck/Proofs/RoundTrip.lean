import PascalCheck.Proofs.ProperTrees
import PascalCheck.Proofs.Verdicts
import PascalCheck.Proofs.WrittenTokens

namespace PascalCheck
set_option autoImplicit true

theorem Expr.render_bare (e : Expr) : e.bare.render = e.render := by
  induction e with
  | absent => rfl
  | ident id => rfl
  | number t text isReal => rfl
  | paren t inner ih => rw [bare, render, render, ih]

mutual

theorem Stmt.render_bare : (s : Stmt) → s.bare.render = s.render
  | .assign t target value => by
    rw [bare, render, render, Expr.render_bare]
    rfl
  | .writeln t args => by
    have hargs : (args.map Expr.bare).map Expr.render = args.map Expr.render := by
      rw [List.map_map]
      exact List.map_congr_left fun e _ => e.render_bare
    rw [bare, render, render, hargs]
  | .block t body => by
    rw [bare, render, render, Stmt.renderLines_bareAll body]

theorem Stmt.renderLines_bareAll : (ss : List Stmt) → renderLines (bareAll ss) = renderLines ss
  | [] => rfl
  | s :: ss => by
    rw [bareAll, renderLines, renderLines, Stmt.render_bare s, Stmt.renderLines_bareAll ss]

end

theorem Program.render_bare (p : Program) : p.bare.render = p.render := by
  obtain ⟨name, vars, routines, body⟩ := p
  have hbody : ((body.map Block.bare).elim "" Block.render) = body.elim "" Block.render := by
    cases body with
    | none => rfl
    | some b => simp [Block.bare, Block.render, Stmt.renderLines_bareAll]
  simp only [bare, render, List.map_map, hbody]
  rfl

theorem Expr.unparen_bare (e : Expr) : e.bare.unparen = e.unparen.bare := by
  induction e with
  | absent => rfl
  | ident id => rfl
  | number t text isReal => rfl
  | paren t inner ih =>
    cases inner with
    | absent => rfl
    | _ => exact ih

def Occurrence.bare : Occurrence → Occurrence
  | .assign target value => .assign target.bare value.bare
  | .argument value => .argument value.bare

mutual

theorem Stmt.occurrences_bare : (s : Stmt) →
    s.bare.occurrences = s.occurrences.map Occurrence.bare
  | .assign t target value => rfl
  | .writeln t args => by
    simp only [bare, occurrences, List.map_map]
    rfl
  | .block t body => by
    rw [bare, occurrences, occurrences, Stmt.occurrencesAll_bareAll body]

theorem Stmt.occurrencesAll_bareAll : (ss : List Stmt) →
    occurrencesAll (bareAll ss) = (occurrencesAll ss).map Occurrence.bare
  | [] => rfl
  | s :: ss => by
    rw [bareAll, occurrencesAll, occurrencesAll, List.map_append, Stmt.occurrences_bare s,
      Stmt.occurrencesAll_bareAll ss]

end

theorem Program.occurrences_bare (p : Program) :
    p.bare.occurrences = p.occurrences.map Occurrence.bare := by
  obtain ⟨name, vars, routines, body⟩ := p
  cases body with
  | none => rfl
  | some b => exact Stmt.occurrencesAll_bareAll b.body

def Occurrence.check? (o : Occurrence) : Option Event := o.event?.map (Event.view .unplaced)

theorem Occurrence.check?_bare (o : Occurrence) : o.bare.check? = o.check? := by
  cases o with
  | assign target value =>
    simp only [bare, check?, event?, Expr.unparen_bare]
    cases value.unparen <;> rfl
  | argument value =>
    simp only [bare, check?, event?, Expr.unparen_bare]
    cases value.unparen <;> rfl

theorem Event.isNameCheck_view (v : View) (e : Event) :
    (e.view v).isNameCheck = e.isNameCheck := by
  cases e <;> rfl

/-- Trees that differ in tokens only have the same checks. -/
theorem exists_occurrence_of_bare {p p' : Program} (h : p.bare = p'.bare)
    (ho : o ∈ p.occurrences) : ∃ o' ∈ p'.occurrences, o'.check? = o.check? := by
  have hmem : o.bare ∈ p'.occurrences.map Occurrence.bare := by
    rw [← p'.occurrences_bare, ← h, p.occurrences_bare]
    exact List.mem_map_of_mem ho
  obtain ⟨o', ho', hbare⟩ := List.mem_map.1 hmem
  exact ⟨o', ho', by rw [← o'.check?_bare, hbare, o.check?_bare]⟩

theorem Declaration.map_symbol_of_no_routine {ds : List Declaration}
    (h : ds.filterMap routine? = []) :
    ds.map symbol = (ds.filterMap var?).map VarDecl.symbol := by
  induction ds with
  | nil => rfl
  | cons d ds ih =>
    cases d with
    | var v => exact congrArg (v.symbol :: ·) (ih h)
    | routine r => cases h

theorem symbols_trace_of_no_routine (h : (analyze source o).program.routines = []) :
    (trace source).filterMap Event.symbol? =
      (analyze source o).program.vars.map VarDecl.symbol := by
  obtain ⟨ds, hds, hsymbols⟩ := exists_declarations source o
  rw [hsymbols, Declaration.map_symbol_of_no_routine (hds.routines.trans h), hds.vars]

theorem VarDecl.symbol_bare (d : VarDecl) :
    d.bare.symbol.view .unplaced = d.symbol.view .unplaced := rfl

theorem map_symbol_view_of_bare {ds ds' : List VarDecl}
    (h : ds.map VarDecl.bare = ds'.map VarDecl.bare) :
    (ds.map VarDecl.symbol).map (Symbol.view .unplaced) =
      (ds'.map VarDecl.symbol).map (Symbol.view .unplaced) := by
  have hsymbols := congrArg (List.map fun d => d.symbol.view .unplaced) h
  simpa only [List.map_map, Function.comp_def, VarDecl.symbol_bare] using hsymbols

theorem SymbolTable.insertAll_view (v : View) (t : SymbolTable) (ss : List Symbol) :
    (t.view v).insertAll (ss.map (Symbol.view v)) = (t.insertAll ss).view v := by
  induction ss generalizing t with
  | nil => rfl
  | cons s ss ih => rw [List.map_cons, insertAll_cons, insertAll_cons, insert_view, ih]

theorem view_symbols_analyze (source : List UInt8) (o : Options) :
    SymbolTable.view .unplaced (.ofList (analyze source o).symbols) =
      SymbolTable.empty.insertAll
        (((trace source).filterMap Event.symbol?).map (Symbol.view .unplaced)) := by
  have htable : SymbolTable.ofList (analyze source o).symbols =
      SymbolTable.empty.insertAll ((trace source).filterMap Event.symbol?) := by
    apply SymbolTable.ext
    rw [SymbolTable.symbols_ofList, symbols_analyze, Run.table_replay]
    rfl
  rw [htable, ← SymbolTable.insertAll_view]
  exact congrArg (SymbolTable.insertAll · _) (SymbolTable.ext rfl)

section Bare

variable {source source' : List UInt8} {o o' : Options}
  (h : (analyze source o).program.bare = (analyze source' o').program.bare)
  (hroutines : (analyze source o).program.routines = [])

include h hroutines

theorem view_symbols_trace_of_bare :
    ((trace source).filterMap Event.symbol?).map (Symbol.view .unplaced) =
      ((trace source').filterMap Event.symbol?).map (Symbol.view .unplaced) := by
  have hbare : (analyze source' o').program.routines.map Routine.bare = [] := by
    have hsame := congrArg Program.routines h
    simpa [Program.bare, hroutines] using hsame.symm
  have hroutines' := List.map_eq_nil_iff.1 hbare
  rw [symbols_trace_of_no_routine hroutines, symbols_trace_of_no_routine hroutines']
  exact map_symbol_view_of_bare (congrArg Program.vars h)

theorem view_symbols_of_bare :
    SymbolTable.view .unplaced (.ofList (analyze source o).symbols) =
      SymbolTable.view .unplaced (.ofList (analyze source' o').symbols) := by
  rw [view_symbols_analyze, view_symbols_analyze, view_symbols_trace_of_bare h hroutines]

theorem keys_of_bare :
    ((trace source).filterMap Event.symbol?).map Symbol.key =
      ((trace source').filterMap Event.symbol?).map Symbol.key := by
  have hkey (s : Symbol) : (s.view .unplaced).key = s.key := View.unplaced.lower_text s.name
  have hkeys := congrArg (List.map Symbol.key) (view_symbols_trace_of_bare h hroutines)
  simpa only [List.map_map, Function.comp_def, hkey] using hkeys

theorem causes_finding_of_bare (hok : (analyze source o).ok = true)
    (hclean : (readerAtEnd source').Clean) (he : e ∈ trace source') (hname : e.isNameCheck = true) :
    (SymbolTable.finding (.ofList (analyze source' o').symbols) e).causes = [] := by
  obtain ⟨place, hplace, hevent⟩ := exists_occurrence_of_mem_trace o' hclean he hname
  obtain ⟨place', hplace', hcheck⟩ := exists_occurrence_of_bare h.symm hplace
  rw [Occurrence.check?, Occurrence.check?, Option.mem_def.1 hevent, Option.map_some,
    Option.map_eq_some_iff] at hcheck
  obtain ⟨e', hevent', hview⟩ := hcheck
  have hname' : e'.isNameCheck = true := by
    rw [← Event.isNameCheck_view .unplaced, hview, Event.isNameCheck_view, hname]
  have hsilent := causes_finding_of_ok hok (mem_trace_of_occurrence hplace' hevent') hname'
  have hsame := SymbolTable.finding_view .unplaced (.ofList (analyze source' o').symbols) e
  rw [← hview, ← view_symbols_of_bare h hroutines, SymbolTable.finding_view] at hsame
  have hcauses := congrArg Finding.causes hsame
  simp only [Finding.view, hsilent, List.map_nil] at hcauses
  exact List.map_eq_nil_iff.1 hcauses.symm

end Bare

namespace Reader

theorem Proceeds.mem_story (h : Proceeds (ofScan scan) s ts) (he : e ∈ s.story) :
    e ≠ .balance ∧ ∀ c n, e ≠ .fault c n := by
  rcases h.reads.mem_story he with he | ⟨u, hu⟩
  · rcases isScan_of_mem_start he with ⟨t, rfl⟩ | ⟨l, n, rfl⟩ | ⟨q, rfl⟩ <;> simp
  · exact hu

end Reader

theorem Written.Program.legal {source : List UInt8}
    (h : Written.Program p (Scan.ofBytes source).tokens)
    (ht : t ∈ (Scan.ofBytes source).tokens) : t.kind ≠ .unknown := by
  have hattempts := h.calm (fun _ => Scan.coherent_of_mem) Run.fresh rfl
  have hmem : Event.scanned t ∈ readEvents false (Scan.ofBytes source).tokens ++ [.ended none] :=
    List.mem_append_left _ (mem_readEvents_scanned.2 ht)
  obtain ⟨before, after, hsplit⟩ := List.append_of_mem hmem
  rw [hsplit] at hattempts
  exact Token.kind_ne_unknown
    (Run.cause?_of_reports_eq_nil (Run.reports_of_attempts_eq_nil hattempts))

/-- A written program is read as itself. Nothing is reported of its grammar, and its brackets have
to be closed once, right before its end. -/
theorem Written.Program.exists_trace {source : List UInt8}
    (h : Written.Program p (Scan.ofBytes source).tokens) (o : Options) :
    (analyze source o).program.bare = p.bare ∧ (readerAtEnd source).Clean ∧
      ∃ front, trace source = front ++ [.balance, .ended (Scan.ofBytes source).openQuote] ∧
        .balance ∉ front := by
  have htokens : (Reader.ofScan (Scan.ofBytes source)).tokens = (Scan.ofBytes source).tokens := by
    rw [Reader.tokens_ofScan, List.filter_eq_self]
    intro t ht
    simpa using h.legal ht
  have hread : Written.Program p (Reader.ofScan (Scan.ofBytes source)).tokens := htokens.symm ▸ h
  obtain ⟨hbare, s, d, hp, hend⟩ := Reader.program_written hread (Reader.sound_ofScan source)
  rw [program_analyze]
  refine ⟨hbare, ?_, s.trace.toList, ?_, ?_⟩
  · intro c n hc
    have hahead : (s.emit .balance).here? = some d := Reader.here?_of_tokens hp.tokens_eq
    rw [readerAtEnd, hend, Reader.story_advance hahead] at hc
    rcases Reader.mem_story_emit.1 hc with hc | hc
    · cases hc
    · exact (hp.mem_story hc).2 c n rfl
  · have hfinal : s.final.events = [.ended (Scan.ofBytes source).openQuote] := by
      rw [hp.reads.final_eq]
      exact Reader.events_final_ofScan fun _ => h.legal
    have htrace : trace source = (s.emit .balance).advance.trace.toList :=
      congrArg (fun u : Reader => u.trace.toList) hend
    rw [htrace, Reader.trace_balance_advance hp.tokens_eq, hfinal]
  · intro hb
    exact (hp.mem_story (List.mem_append_left _ hb)).1 rfl

/-- The text of an accepted program without routines, in which no block is followed by another
statement, is accepted as well. It is read as the same program up to tokens, and so its text is the
same again. -/
theorem printed_program_is_read_back (source : List UInt8) (o o' : Options)
    (h : (analyze source o).ok = true) (hroutines : (analyze source o).program.routines = [])
    (hblocks : (analyze source o).program.blocksLast = true) :
    (analyze (utf8 (analyze source o).program.render) o').ok = true ∧
      (analyze (utf8 (analyze source o).program.render) o').program.bare =
        (analyze source o).program.bare ∧
      (analyze (utf8 (analyze source o).program.render) o').program.render =
        (analyze source o).program.render := by
  obtain ⟨hwritten, hquote⟩ := (proper_of_ok h).scan hroutines hblocks
  generalize utf8 (analyze source o).program.render = printed at hwritten hquote ⊢
  -- Only what the tokens of the text are matters from here on.
  obtain ⟨hbare, hclean, front, htrace, hfront⟩ := hwritten.exists_trace o'
  rw [hquote] at htrace
  have htokens := hwritten.calm (fun _ => Scan.coherent_of_mem) Run.fresh rfl
  have hdistinct := (distinct_of_ok h).of_keys (keys_of_bare hbare.symm hroutines).symm
  have hnames (e : Event) (he : e ∈ trace printed) (hname : e.isNameCheck = true) :=
    causes_finding_of_bare hbare.symm hroutines h hclean he hname
  refine ⟨ok_of_parts o' htrace hfront htokens hclean hdistinct hnames, hbare, ?_⟩
  rw [← Program.render_bare, hbare, Program.render_bare]

/-- A source with signs, parentheses, a comment, a real literal and a block at the end. -/
def untidy : List UInt8 :=
  "PROGRAM Demo; VAR i,j:integer; r:real; BEGIN i:=(-32768); writeln(I,(+7),.5e-3);; {c} r:=j; begin j:=1 end; END.".toUTF8.toList

theorem printed_program_is_read_back_untidy :
    (analyze untidy ⟨false, 0⟩).ok = true ∧ (analyze untidy ⟨false, 0⟩).program.routines = [] ∧
      (analyze untidy ⟨false, 0⟩).program.blocksLast = true ∧
      (analyze (utf8 (analyze untidy ⟨false, 0⟩).program.render) ⟨true, 1⟩).program.bare =
        (analyze untidy ⟨false, 0⟩).program.bare := by
  -- One evaluation of the analysis decides all three.
  have huntidy : (analyze untidy ⟨false, 0⟩).ok = true ∧
      (analyze untidy ⟨false, 0⟩).program.routines = [] ∧
      (analyze untidy ⟨false, 0⟩).program.blocksLast = true := by
    decide +kernel
  obtain ⟨hok, hroutines, hblocks⟩ := huntidy
  exact ⟨hok, hroutines, hblocks,
    (printed_program_is_read_back untidy ⟨false, 0⟩ ⟨true, 1⟩ hok hroutines hblocks).2.1⟩

end PascalCheck
