import PascalCheck.Proofs.Faults
import PascalCheck.Proofs.Occurrences

namespace PascalCheck
set_option autoImplicit true

namespace Reader

theorem isNameCheck_of_mem_declared (h : e ∈ (ofScan scan).declared.story) :
    e.isNameCheck = false := by
  rcases (reads_declared (ofScan scan)).mem_story h with he | ⟨u, hu⟩
  · rcases isScan_of_mem_start he with ⟨t, rfl⟩ | ⟨l, n, rfl⟩ | ⟨q, rfl⟩ <;> rfl
  · cases hu with
    | complaint hu => cases hu <;> rfl
    | declare symbol => rfl

theorem Checking.ne_declare (h : Checking s e) (symbol : Symbol) : e ≠ .declare symbol := by
  cases h with
  | complaint h => cases h <;> exact Event.noConfusion
  | _ => exact Event.noConfusion

end Reader

/-- A trace is made of a part without checks of names and a part without declarations. -/
theorem trace_split (source : List UInt8) :
    ∃ front back, trace source = front ++ back ∧ (∀ e ∈ front, e.isNameCheck = false) ∧
      ∀ e ∈ back, ∀ s, e ≠ .declare s := by
  have hd := Reader.reads_declared (Reader.ofScan (Scan.ofBytes source))
  have hb := Reader.reads_body (Reader.sound_ofScan source)
  obtain ⟨back, hback, hmem⟩ := hb.exists_trace_append
  refine ⟨_, back, hback, ?_, ?_⟩
  · intro e he
    exact Reader.isNameCheck_of_mem_declared (List.mem_append_left _ he)
  · intro e he s
    rcases hmem e he with he | ⟨u, hu⟩
    · have hstart : e ∈ (Reader.ofScan (Scan.ofBytes source)).story :=
        List.mem_append_right _ (hd.upcoming_subset he)
      rcases Reader.isScan_of_mem_start hstart with ⟨t, rfl⟩ | ⟨l, n, rfl⟩ | ⟨q, rfl⟩ <;>
        exact Event.noConfusion
    · exact hu.ne_declare s

theorem table_of_isNameCheck (h : trace source = before ++ e :: after)
    (he : e.isNameCheck = true) (o : Options) :
    (Run.fresh.replay before).checker.table = .ofList (analyze source o).symbols := by
  obtain ⟨front, back, hsplit, hfront, hback⟩ := trace_split source
  have hafter : ∀ f ∈ e :: after, ∀ s, f ≠ .declare s := by
    rcases List.append_eq_append_iff.1 (h.symm.trans hsplit) with ⟨es, hes, hs⟩ | ⟨es, hes, hs⟩
    · cases es with
      | nil =>
        rw [List.nil_append] at hs
        rw [hs]
        exact hback
      | cons f es =>
        obtain ⟨rfl, -⟩ : e = f ∧ after = es ++ back := by simpa using hs
        have hf := hfront e (by simp [hes])
        rw [he] at hf
        cases hf
    · intro f hf
      exact hback f (by rw [hs]; exact List.mem_append_right _ hf)
  have htable := Run.table_replay_of_forall (r := Run.fresh.replay before) hafter
  rw [← Run.replay_append, ← h] at htable
  apply SymbolTable.ext
  rw [SymbolTable.symbols_ofList, symbols_analyze, ← htable]

namespace Reader

theorem covers_terminator (s : Reader) : Covers s [] s.terminator := by
  have hbalance (hdot : s.sees Code.dot = true) : Covers s [] (s.emit .balance).advance := by
    have hstory : (s.emit .balance).advance.story = (s.emit .balance).story :=
      story_advance_of_sees hdot
    refine ⟨?_, by simp, ?_⟩
    · intro e he
      rw [hstory]
      exact mem_story_emit.2 (.inr he)
    · intro _ e he hname
      rw [hstory] at he
      rcases mem_story_emit.1 he with rfl | he
      · cases hname
      · exact .inl he
  unfold terminator
  split
  · rename_i hdot
    dsimp only
    split
    · exact hbalance hdot
    · exact (hbalance hdot).trans (.of_reads ((reads_unexpected _ _).trans (reads_drain _)))
  · exact .of_reads (.emit (.last rfl) (reads_drain _))

theorem covers_program (s : Reader) : Covers s.declared s.program.1.occurrences s.program.2 := by
  have h := (covers_block s.declared).trans (covers_terminator _)
  rw [List.append_nil] at h
  exact h

end Reader

theorem mem_trace_of_occurrence {source : List UInt8} {o : Options}
    (hp : p ∈ (analyze source o).program.occurrences) (he : e ∈ p.event?) : e ∈ trace source := by
  rw [program_analyze] at hp
  rw [← story_readerAtEnd]
  exact (Reader.covers_program (Reader.ofScan (Scan.ofBytes source))).checked p hp e he

theorem exists_occurrence_of_mem_trace {source : List UInt8} (o : Options)
    (hs : (readerAtEnd source).Clean) (he : e ∈ trace source) (hname : e.isNameCheck = true) :
    ∃ p ∈ (analyze source o).program.occurrences, e ∈ p.event? := by
  rw [program_analyze]
  rw [← story_readerAtEnd] at he
  rcases (Reader.covers_program (Reader.ofScan (Scan.ofBytes source))).only hs e he hname with
    he | hp
  · rw [Reader.isNameCheck_of_mem_declared he] at hname
    cases hname
  · exact hp

namespace Occurrence

/-- The faults of the names at a place of a tree, by a symbol table. -/
inductive Faulty (table : SymbolTable) : Occurrence → Cause → Nat → Prop
  | literalTarget : value.unparen = .number t text isReal → table.lookup? target.name = none →
      Faulty table (.assign target value) (.undeclared target.name) t.line
  | literalRoutine : value.unparen = .number t text isReal →
      (Literal.mk text isReal).check.ok = true → table.lookup? target.name = some d →
      d.isFunction = true →
      Faulty table (.assign target value) (.notAVariable d.name) t.line
  | realLiteral : value.unparen = .number t text true → (Literal.mk text true).check.ok = true →
      table.lookup? target.name = some d → d.isFunction = false → d.type = .integer →
      Faulty table (.assign target value) (.mismatch (.realLiteral text d.name)) t.line
  | target : value.unparen = .ident source → table.lookup? target.name = none →
      Faulty table (.assign target value) (.undeclared target.name) target.token.line
  | source : value.unparen = .ident source → table.lookup? source.name = none →
      Faulty table (.assign target value) (.undeclared source.name) target.token.line
  | routine : value.unparen = .ident source → table.lookup? target.name = some d →
      table.lookup? source.name = some s → d.isFunction = true →
      Faulty table (.assign target value) (.notAVariable d.name) target.token.line
  | noValue : value.unparen = .ident source → table.lookup? target.name = some d →
      table.lookup? source.name = some s → d.isFunction = false → s.type = .none →
      Faulty table (.assign target value) (.mismatch (.noValue s.name)) target.token.line
  | realSource : value.unparen = .ident source → table.lookup? target.name = some d →
      table.lookup? source.name = some s → d.isFunction = false → s.type = .real →
      d.type = .integer →
      Faulty table (.assign target value) (.mismatch (.realSource s.name d.name)) target.token.line
  | argument : value.unparen = .ident used → table.lookup? used.name = none →
      Faulty table (.argument value) (.undeclared used.name) used.token.line

/-- Every fault of the names at a place is found by its check. -/
theorem Faulty.mem_reports {p : Occurrence} (h : p.Faulty table c n) :
    ∃ e ∈ p.event?, e.isNameCheck = true ∧
      ∀ r : Run, r.checker.table = table → c.onLine n ∈ r.reports e := by
  cases h with
  | literalTarget hv hd =>
    refine ⟨_, by simp only [event?, hv]; rfl, rfl, ?_⟩
    rintro r rfl
    exact Finding.mem_diagnostics.2
      ⟨_, (SymbolTable.mem_causes_checkAssign_none hd).2 (.inl rfl), rfl⟩
  | literalRoutine hv hok hd hf =>
    refine ⟨_, by simp only [event?, hv]; rfl, rfl, ?_⟩
    rintro r rfl
    exact Finding.mem_diagnostics.2
      ⟨_, (SymbolTable.mem_causes_checkAssign_some hd).2 (.inr (.inl ⟨hok, hf, rfl⟩)), rfl⟩
  | realLiteral hv hok hd hf htype =>
    refine ⟨_, by simp only [event?, hv]; rfl, rfl, ?_⟩
    rintro r rfl
    exact Finding.mem_diagnostics.2 ⟨_, (SymbolTable.mem_causes_checkAssign_some hd).2
      (.inr (.inr (.inl ⟨hok, hf, ⟨rfl, htype⟩, rfl⟩))), rfl⟩
  | target hv hd =>
    refine ⟨_, by simp only [event?, hv]; rfl, rfl, ?_⟩
    rintro r rfl
    exact Finding.mem_diagnostics.2
      ⟨_, (SymbolTable.mem_causes_checkAssignName_none (.inl hd)).2 (.inl ⟨hd, rfl⟩), rfl⟩
  | source hv hs =>
    refine ⟨_, by simp only [event?, hv]; rfl, rfl, ?_⟩
    rintro r rfl
    exact Finding.mem_diagnostics.2
      ⟨_, (SymbolTable.mem_causes_checkAssignName_none (.inr hs)).2 (.inr ⟨hs, rfl⟩), rfl⟩
  | routine hv hd hs hf =>
    refine ⟨_, by simp only [event?, hv]; rfl, rfl, ?_⟩
    rintro r rfl
    exact Finding.mem_diagnostics.2
      ⟨_, (SymbolTable.mem_causes_checkAssignName_some hd hs).2 (.inl ⟨hf, rfl⟩), rfl⟩
  | noValue hv hd hs hf htype =>
    refine ⟨_, by simp only [event?, hv]; rfl, rfl, ?_⟩
    rintro r rfl
    exact Finding.mem_diagnostics.2 ⟨_, (SymbolTable.mem_causes_checkAssignName_some hd hs).2
      (.inr (.inl ⟨hf, htype, rfl⟩)), rfl⟩
  | realSource hv hd hs hf hreal hint =>
    refine ⟨_, by simp only [event?, hv]; rfl, rfl, ?_⟩
    rintro r rfl
    exact Finding.mem_diagnostics.2 ⟨_, (SymbolTable.mem_causes_checkAssignName_some hd hs).2
      (.inr (.inr ⟨hf, hreal, hint, rfl⟩)), rfl⟩
  | argument hv hd =>
    refine ⟨_, by simp only [event?, hv]; rfl, rfl, ?_⟩
    rintro r rfl
    exact Finding.mem_diagnostics.2
      ⟨_, SymbolTable.mem_causes_checkDeclared.2 ⟨hd, rfl⟩, rfl⟩

theorem faulty_of_checkAssign {table : SymbolTable} {target : Ident}
    (hv : value.unparen = .number t text isReal)
    (hc : c ∈ (table.checkAssign target.name ⟨text, isReal⟩).causes)
    (hname : c.isOfLiteral = false) : Faulty table (.assign target value) c t.line := by
  have hliteral {type : ValueType} {text : String} : c ∉ (type.check text).causes := by
    intro h
    rw [ValueType.isOfLiteral_of_mem_check h] at hname
    cases hname
  cases hd : table.lookup? target.name with
  | none =>
    rcases (SymbolTable.mem_causes_checkAssign_none hd).1 hc with rfl | hc
    · exact .literalTarget hv hd
    · exact absurd hc hliteral
  | some d =>
    rcases (SymbolTable.mem_causes_checkAssign_some hd).1 hc with
      hc | ⟨hok, hf, rfl⟩ | ⟨hok, hf, ⟨hreal, htype⟩, rfl⟩ | ⟨-, -, -, hc⟩
    · exact absurd hc hliteral
    · exact .literalRoutine hv hok hd hf
    · cases hreal
      exact .realLiteral hv hok hd hf htype
    · exact absurd hc hliteral

theorem faulty_of_checkAssignName {table : SymbolTable} {target source : Ident}
    (hv : value.unparen = .ident source)
    (hc : c ∈ (table.checkAssignName target.name source.name).causes) :
    Faulty table (.assign target value) c target.token.line := by
  by_cases hn : table.lookup? target.name = none ∨ table.lookup? source.name = none
  · rcases (SymbolTable.mem_causes_checkAssignName_none hn).1 hc with ⟨hd, rfl⟩ | ⟨hs, rfl⟩
    · exact .target hv hd
    · exact .source hv hs
  · obtain ⟨hd, hs⟩ := not_or.1 hn
    obtain ⟨d, hd⟩ := Option.ne_none_iff_exists'.1 hd
    obtain ⟨s, hs⟩ := Option.ne_none_iff_exists'.1 hs
    rcases (SymbolTable.mem_causes_checkAssignName_some hd hs).1 hc with
      ⟨hf, rfl⟩ | ⟨hf, htype, rfl⟩ | ⟨hf, hreal, hint, rfl⟩
    · exact .routine hv hd hs hf
    · exact .noValue hv hd hs hf htype
    · exact .realSource hv hd hs hf hreal hint

theorem faulty_of_mem_reports {p : Occurrence} {r : Run} (he : e ∈ p.event?)
    (hd : d ∈ r.reports e) (hcode : d.code ∉ [102, 119, 120]) :
    ∃ c n, p.Faulty r.checker.table c n ∧ c.onLine n = d := by
  cases p with
  | assign target value =>
    cases hv : value.unparen with
    | number t text isReal =>
      simp only [event?, hv, Option.mem_some] at he
      subst he
      obtain ⟨c, hc, rfl⟩ := Finding.mem_diagnostics.1 hd
      rw [Cause.code_onLine, ← Cause.isOfLiteral_iff, Bool.not_eq_true] at hcode
      exact ⟨c, t.line, faulty_of_checkAssign hv hc hcode, rfl⟩
    | ident source =>
      simp only [event?, hv, Option.mem_some] at he
      subst he
      obtain ⟨c, hc, rfl⟩ := Finding.mem_diagnostics.1 hd
      exact ⟨c, target.token.line, faulty_of_checkAssignName hv hc, rfl⟩
    | absent => simp [event?, hv] at he
    | paren t inner => simp [event?, hv] at he
  | argument value =>
    cases hv : value.unparen with
    | ident used =>
      simp only [event?, hv, Option.mem_some] at he
      subst he
      obtain ⟨c, hc, rfl⟩ := Finding.mem_diagnostics.1 hd
      obtain ⟨hlookup, rfl⟩ := SymbolTable.mem_causes_checkDeclared.1 hc
      exact ⟨_, used.token.line, .argument hv hlookup, rfl⟩
    | number t text isReal => simp [event?, hv] at he
    | absent => simp [event?, hv] at he
    | paren t inner => simp [event?, hv] at he

end Occurrence

theorem Event.isNameCheck_of_mayReport (h : mayReport e c = true)
    (hc : c.code ∈ [104, 106, 112]) (he : ∀ c n, e ≠ .fault c n) : e.isNameCheck = true := by
  cases e with
  | fault c' n => exact absurd rfl (he c' n)
  | use name n => rfl
  | assign name l n => rfl
  | assignName target source n => rfl
  | _ => cases c <;> simp_all [mayReport, Cause.isOfLiteral, Cause.code]

/-- The names of the tree are checked against the final table: every fault of names at a place of
the tree is reported, and if there is no violation of the grammar, no other is. -/
theorem names_checked_against_final_table (source : List UInt8) (o : Options)
    (h : o.maxDiagnostics ≤ 0) :
    (∀ p ∈ (analyze source o).program.occurrences, ∀ c n,
        p.Faulty (.ofList (analyze source o).symbols) c n →
          c.onLine n ∈ (analyze source o).diagnostics) ∧
      ((∀ d ∈ (analyze source o).diagnostics, ¬ d.IsSyntax) →
        ∀ d ∈ (analyze source o).diagnostics,
          d.code = 106 ∨ d.code = 112 ∨ d.code = 104 ∧ d.StartsWith "expected variable" →
          ∃ p ∈ (analyze source o).program.occurrences, ∃ c n,
            p.Faulty (.ofList (analyze source o).symbols) c n ∧ c.onLine n = d) := by
  refine ⟨?_, ?_⟩
  · intro p hp c n hfaulty
    -- The check of the place stands somewhere in the trace, with the final table at that point.
    obtain ⟨e, he, hname, hreports⟩ := hfaulty.mem_reports
    obtain ⟨before, after, htrace⟩ := List.append_of_mem (mem_trace_of_occurrence hp he)
    rw [mem_diagnostics_analyze h, htrace]
    exact Run.mem_attempts_of_mem_reports (hreports _ (table_of_isNameCheck htrace hname o))
  · intro hsyntax d hd hcode
    have hclean := (no_syntax_iff_clean h).1 hsyntax
    obtain ⟨before, e, after, htrace, hreports⟩ :=
      Run.exists_of_mem_attempts ((mem_diagnostics_analyze h).1 hd)
    have hmem : e ∈ trace source := by simp [htrace]
    have hfault : ∀ c n, e ≠ .fault c n := by
      rintro c n rfl
      rw [← story_readerAtEnd] at hmem
      exact hclean c n hmem
    obtain ⟨c, n, hmay, rfl⟩ := Run.exists_of_mem_reports hreports
    rw [Cause.code_onLine] at hcode
    have hname : c.code ∈ [104, 106, 112] := by
      rcases hcode with hc | hc | ⟨hc, -⟩ <;> simp [hc]
    have hliteral : c.code ∉ [102, 119, 120] := by
      rcases hcode with hc | hc | ⟨hc, -⟩ <;> simp [hc]
    have hname := Event.isNameCheck_of_mayReport hmay hname hfault
    obtain ⟨p, hp, he⟩ := exists_occurrence_of_mem_trace o hclean hmem hname
    have hfaulty := Occurrence.faulty_of_mem_reports he hreports hliteral
    rw [table_of_isNameCheck htrace hname o] at hfaulty
    exact ⟨p, hp, hfaulty⟩

/-- A source that assigns a real literal to an integer variable, inside of a block. -/
def misfit : List UInt8 := "var i: integer; begin begin i := (1.5) end end.".toUTF8.toList

theorem exists_faulty_misfit :
    (0 : Int) ≤ 0 ∧ ∃ p ∈ (analyze misfit ⟨false, 0⟩).program.occurrences, ∃ c n,
      p.Faulty (.ofList (analyze misfit ⟨false, 0⟩).symbols) c n ∧
        c.onLine n = (Cause.mismatch (.realLiteral "1.5" "i")).onLine 1 :=
  ⟨Int.le_refl 0, (names_checked_against_final_table misfit ⟨false, 0⟩ (Int.le_refl 0)).2
    (by decide +kernel) _ (by decide +kernel) (.inr (.inl rfl))⟩

end PascalCheck
