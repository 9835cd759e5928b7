import PascalCheck.Proofs.TokenChecks

namespace PascalCheck
set_option autoImplicit true

def Event.isTaking : Event → Bool
  | .scanned _ | .ended _ => true
  | _ => false

namespace Run

/-- What is reported where a token is taken depends on the open brackets alone. -/
theorem reports_of_isTaking {r r' : Run} (he : e.isTaking = true) (h : r.brackets = r'.brackets) :
    r.reports e = r'.reports e := by
  cases e with
  | scanned t => simp only [reports, bracketReports, h]
  | ended q => simp only [reports, unclosedReports, h]
  | _ => cases he

theorem brackets_step_of_isTaking {r r' : Run} (he : e.isTaking = true)
    (h : r.brackets = r'.brackets) : (r.step e).brackets = (r'.step e).brackets := by
  rw [step_eq, step_eq]
  cases e with
  | scanned t => simp only [bracketsAfter, h]
  | ended q => rfl
  | _ => cases he

/-- Brackets are forgotten in silence only if none is open. -/
theorem brackets_step_of_silent {r : Run} (he : e.isTaking = false) (h : r.reports e = []) :
    (r.step e).brackets = r.brackets := by
  rw [step_eq]
  cases e with
  | balance =>
    have hframes : r.brackets.frames = [] := by
      simpa [reports, unclosedReports, Brackets.unclosed] using h
    exact congrArg Brackets.mk hframes.symm
  | scanned t => cases he
  | ended q => cases he
  | _ => rfl

/-- Where nothing but taken tokens is reported, the run is that of the taken tokens. -/
theorem attempts_of_silent_between {r r' : Run}
    (h : ∀ before e after, es = before ++ e :: after → e.isTaking = false →
      (r.replay before).reports e = [])
    (hb : r.brackets = r'.brackets) : r.attempts es = r'.attempts (es.filter Event.isTaking) := by
  induction es generalizing r r' with
  | nil => rfl
  | cons e es ih =>
    have hrest : ∀ before f after, es = before ++ f :: after → f.isTaking = false →
        ((r.step e).replay before).reports f = [] := by
      intro before f after hes hf
      exact h (e :: before) f after (by rw [hes]; rfl) hf
    cases he : e.isTaking with
    | true =>
      rw [List.filter_cons_of_pos he, attempts, attempts, reports_of_isTaking he hb,
        ih hrest (brackets_step_of_isTaking he hb)]
    | false =>
      have hsilent : r.reports e = [] := h [] e es rfl he
      have hkeep := (brackets_step_of_silent he hsilent).trans hb
      rw [List.filter_cons_of_neg (by simp [he]), attempts, hsilent, ih hrest hkeep]
      rfl

theorem reports_of_attempts_eq_nil {r : Run} (h : r.attempts (before ++ e :: after) = []) :
    (r.replay before).reports e = [] := by
  rw [List.eq_nil_iff_forall_not_mem]
  intro d hd
  have hmem : d ∈ r.attempts (before ++ e :: after) := mem_attempts_of_mem_reports hd
  rw [h] at hmem
  cases hmem

theorem attempts_takings_of_eq_nil {r : Run} (h : r.attempts es = []) :
    r.attempts (es.filter Event.isTaking) = [] := by
  rw [← attempts_of_silent_between (r := r) _ rfl, h]
  intro before e after hes _
  rw [hes] at h
  exact reports_of_attempts_eq_nil h

theorem cause?_of_reports_eq_nil {r : Run} (h : r.reports (.scanned t) = []) : t.cause? = none := by
  have hown : t.reports = [] := (List.append_eq_nil_iff.1 h).2
  simpa [Token.reports] using hown

end Run

theorem Token.kind_ne_unknown {t : Token} (h : t.cause? = none) : t.kind ≠ .unknown := by
  intro hk
  simp [cause?, hk] at h

theorem takings_literalEvents (t : Token) (negated : Bool) :
    (t.literalEvents negated).filter Event.isTaking = [] := by
  unfold Token.literalEvents
  split <;> rfl

theorem takings_readEvents (negated : Bool) (ts : List Token) :
    (readEvents negated ts).filter Event.isTaking = ts.map .scanned := by
  induction ts generalizing negated with
  | nil => rfl
  | cons t ts ih =>
    rw [readEvents]
    split
    · rw [List.filter_cons_of_pos rfl, ih, List.map_cons]
    · rw [List.cons_append, List.filter_cons_of_pos rfl, List.filter_append,
        takings_literalEvents, ih, List.nil_append, List.map_cons]

theorem takings_tokenEvents (negated : Bool) (ts : List Token) :
    (tokenEvents negated ts).filter Event.isTaking = ts.map .scanned := by
  induction ts generalizing negated with
  | nil => rfl
  | cons t ts ih =>
    rw [tokenEvents, List.cons_append, List.filter_cons_of_pos rfl, List.filter_append,
      takings_literalEvents, ih, List.nil_append, List.map_cons]

namespace Reader

/-- A reader that adds no tokens of its own keeps the tokens of its story and their order. -/
theorem Reads.takings (h : Reads P s s') (hP : ∀ u e, P u e → e.isTaking = false) :
    s'.story.filter Event.isTaking = s.story.filter Event.isTaking := by
  refine h.invariant
    (I := fun u => u.story.filter Event.isTaking = s.story.filter Event.isTaking) rfl ?_ ?_
  · intro u t ht hu
    rwa [story_advance ht]
  · intro u e he hu
    rw [story, List.filter_append] at hu
    rw [story_emit, List.filter_append, List.filter_cons_of_neg (by simp [hP u e he])]
    exact hu

theorem Complaint.isTaking (h : Complaint s e) : e.isTaking = false := by
  cases h <;> rfl

theorem Declaring.isTaking (h : Declaring s e) : e.isTaking = false := by
  cases h with
  | complaint h => exact h.isTaking
  | declare symbol => rfl

theorem Checking.isTaking (h : Checking s e) : e.isTaking = false := by
  cases h with
  | complaint h => exact h.isTaking
  | _ => rfl

end Reader

/-- An analysis takes every token of its source once and in order, and then the end. -/
theorem takings_trace (source : List UInt8) :
    (trace source).filter Event.isTaking =
      (Scan.ofBytes source).tokens.map .scanned ++ [.ended (Scan.ofBytes source).openQuote] := by
  have hbody := (Reader.reads_body (Reader.sound_ofScan source)).takings
    fun _ _ h => h.isTaking
  have hdeclared := (Reader.reads_declared (Reader.ofScan (Scan.ofBytes source))).takings
    fun _ _ h => h.isTaking
  rw [← story_readerAtEnd]
  refine hbody.trans (hdeclared.trans ?_)
  rw [Reader.story_ofScan, List.filter_append, takings_readEvents]
  rfl

theorem takings_events (scan : Scan) :
    scan.events.filter Event.isTaking = scan.tokens.map .scanned ++ [.ended scan.openQuote] := by
  rw [Scan.events, List.filter_append, takings_tokenEvents]
  rfl

theorem attempts_trace_of_ok (h : (analyze source o).ok = true) :
    Run.fresh.attempts (trace source) = [] := by
  rw [ok_analyze source o false, Report.ok, List.isEmpty_iff] at h
  rw [List.eq_nil_iff_forall_not_mem]
  intro d hd
  have hmem := (mem_diagnostics_analyze (o := ⟨false, 0⟩) (Int.le_refl 0)).2 hd
  rw [h] at hmem
  cases hmem

theorem reports_of_ok (h : (analyze source o).ok = true)
    (ht : trace source = before ++ e :: after) :
    (Run.fresh.replay before).reports e = [] :=
  Run.reports_of_attempts_eq_nil (ht ▸ attempts_trace_of_ok h)

theorem kind_ne_unknown_of_ok (h : (analyze source o).ok = true)
    (ht : t ∈ (Scan.ofBytes source).tokens) : t.kind ≠ .unknown := by
  have hstart : Event.scanned t ∈ (Reader.ofScan (Scan.ofBytes source)).story := by
    rw [Reader.story_ofScan]
    exact List.mem_append_left _ (mem_readEvents_scanned.2 ht)
  obtain ⟨before, after, htrace⟩ := List.append_of_mem (mem_trace_of_mem_start hstart)
  exact Token.kind_ne_unknown (Run.cause?_of_reports_eq_nil (reports_of_ok h htrace))

/-- Without illegal characters both rules for the sign of a number are one. -/
theorem tokenEvents_eq_readEvents (h : ∀ t ∈ ts, t.kind ≠ .unknown) (negated : Bool) :
    tokenEvents negated ts = readEvents negated ts := by
  induction ts generalizing negated with
  | nil => rfl
  | cons t ts ih =>
    have ht := h t List.mem_cons_self
    rw [tokenEvents, readEvents, if_neg ht, ih fun u hu => h u (List.mem_cons_of_mem t hu)]

theorem causes_check_of_ok (h : (analyze source o).ok = true)
    (hl : .literal l n ∈ (Scan.ofBytes source).events) : l.check.causes = [] := by
  have hread : Event.literal l n ∈ (Reader.ofScan (Scan.ofBytes source)).story := by
    rw [Reader.story_ofScan]
    rwa [Scan.events, tokenEvents_eq_readEvents fun t => kind_ne_unknown_of_ok h] at hl
  obtain ⟨before, after, htrace⟩ := List.append_of_mem (mem_trace_of_mem_start hread)
  exact List.map_eq_nil_iff.1 (reports_of_ok h htrace)

/-- The tokens of an accepted source are listed without a diagnostic. -/
theorem tokenize_accepts_of_ok (source : List UInt8) (o : Options)
    (h : (analyze source o).ok = true) : (tokenize source).2 = [] := by
  have htrace : Run.fresh.attempts ((trace source).filter Event.isTaking) = [] := by
    rw [← Run.attempts_of_silent_between (fun _ _ _ ht _ => reports_of_ok h ht) rfl]
    exact attempts_trace_of_ok h
  -- Between the tokens of the list there are checks of literals only.
  have hbetween : ∀ before e after, (Scan.ofBytes source).events = before ++ e :: after →
      e.isTaking = false → (Run.fresh.replay before).reports e = [] := by
    intro before e after hes he
    have hmem : e ∈ (Scan.ofBytes source).events := by simp [hes]
    have hscan := Scan.isOfScan_of_mem_events hmem
    cases e with
    | literal l n => exact List.map_eq_nil_iff.2 (causes_check_of_ok h hmem)
    | scanned t => cases he
    | ended q => cases he
    | _ => cases hscan
  have hevents : Run.fresh.attempts (Scan.ofBytes source).events = [] := by
    rw [Run.attempts_of_silent_between hbetween rfl, takings_events, ← takings_trace]
    exact htrace
  rw [List.eq_nil_iff_forall_not_mem]
  intro d hd
  have hattempt := mem_list_replay_fresh.1 hd
  rw [hevents] at hattempt
  cases hattempt

/-- A source with brackets, a negative literal and a real one. -/
def accepted : List UInt8 :=
  "var i: integer; r: real; begin i := (-32768); writeln((i), 2.5e3); r := 1 end.".toUTF8.toList

theorem tokenize_accepts_accepted :
    (analyze accepted ⟨true, 1⟩).ok = true ∧ (tokenize accepted).2 = [] := by
  have hok : (analyze accepted ⟨true, 1⟩).ok = true := by decide +kernel
  exact ⟨hok, tokenize_accepts_of_ok accepted ⟨true, 1⟩ hok⟩

end PascalCheck
