import PascalCheck.Proofs.Literals

namespace PascalCheck
set_option autoImplicit true

def directlyAfterMinus (before : List Token) : Bool := before.getLast?.any (·.is Code.minus)

/-- The faults of a scan when a rule tells from the tokens before a number whether it is
negated. -/
inductive Scan.FaultyBy (negates : List Token → Bool) (scan : Scan) : Cause → Nat → Prop
  | character : t ∈ scan.tokens → t.kind = .unknown →
      FaultyBy negates scan (.invalidCharacter t.lexeme) t.line
  | string : scan.openQuote = some n → FaultyBy negates scan .unterminatedString n
  | malformed : t ∈ scan.tokens → t.kind = .number → t.isReal = true →
      Numeral.classifyReal t.lexeme = .malformed →
      FaultyBy negates scan (.invalidLiteral t.lexeme) t.line
  | range : scan.tokens = before ++ t :: after → t.kind = .number →
      c ∈ (t.literal (negates before)).check.causes → c.code = 119 ∨ c.code = 120 →
      FaultyBy negates scan c t.line

namespace Scan

variable {scan : Scan}

theorem faulty_iff_faultyBy : scan.Faulty c n ↔ scan.FaultyBy (endsWithMinus false) c n := by
  constructor
  · rintro (⟨ht, hk⟩ | ⟨hq⟩ | ⟨ht, hk, hr, hm⟩ | ⟨hs, hk, hc, hcode⟩)
    · exact .character ht hk
    · exact .string hq
    · exact .malformed ht hk hr hm
    · exact .range hs hk hc hcode
  · rintro (⟨ht, hk⟩ | ⟨hq⟩ | ⟨ht, hk, hr, hm⟩ | ⟨hs, hk, hc, hcode⟩)
    · exact .character ht hk
    · exact .string hq
    · exact .malformed ht hk hr hm
    · exact .range hs hk hc hcode

theorem FaultyBy.of_code (h : scan.FaultyBy negates c n) (hc : c.code ∈ [102, 117, 118]) :
    scan.FaultyBy negates' c n := by
  cases h with
  | character ht hk => exact .character ht hk
  | string hq => exact .string hq
  | malformed ht hk hr hm => exact .malformed ht hk hr hm
  | range hs hk hm hcode =>
    rcases hcode with hcode | hcode
    · simp [hcode] at hc
    · simp [hcode] at hc

/-- Rules that agree where numbers stand find the same faults. -/
theorem FaultyBy.congr (h : scan.FaultyBy negates c n)
    (hsame : ∀ before t after, scan.tokens = before ++ t :: after → t.kind = .number →
      negates before = negates' before) : scan.FaultyBy negates' c n := by
  cases h with
  | character ht hk => exact .character ht hk
  | string hq => exact .string hq
  | malformed ht hk hr hm => exact .malformed ht hk hr hm
  | range hs hk hm hcode =>
    rw [hsame _ _ _ hs hk] at hm
    exact .range hs hk hm hcode

theorem FaultyBy.code (h : scan.FaultyBy negates c n) : c.code ∈ [102, 117, 118, 119, 120] := by
  cases h with
  | range _ _ _ hcode => rcases hcode with hc | hc <;> simp [hc]
  | _ => simp [Cause.code]

end Scan

def Event.ownReports : Event → List Diagnostic
  | .scanned t => t.reports
  | .ended openQuote =>
    openQuote.toList.map fun line : Nat => Cause.unterminatedString.onLine line
  | .literal l line => l.check.diagnostics line
  | _ => []

def Event.isOfScan : Event → Bool
  | .scanned _ | .literal _ _ | .ended _ => true
  | _ => false

theorem Run.mem_reports_iff_ownReports {r : Run} (he : e.isOfScan = true) (hd : d.code ≠ 116) :
    d ∈ r.reports e ↔ d ∈ e.ownReports := by
  -- Whatever brackets report has a code of its own.
  cases e with
  | scanned t =>
    have hb : d ∉ r.bracketReports t := by
      intro h
      obtain ⟨f, -, rfl⟩ := List.mem_map.1 h
      exact hd rfl
    simp [reports, Event.ownReports, hb]
  | ended openQuote =>
    have hb : d ∉ r.unclosedReports := by
      intro h
      obtain ⟨f, -, rfl⟩ := List.mem_map.1 h
      exact hd rfl
    simp [reports, Event.ownReports, hb]
  | literal l line => exact Iff.rfl
  | _ => cases he

theorem Run.mem_attempts_iff_ownReports {r : Run} (hes : ∀ e ∈ es, e.isOfScan = true)
    (hd : d.code ≠ 116) : d ∈ r.attempts es ↔ ∃ e ∈ es, d ∈ e.ownReports := by
  induction es generalizing r with
  | nil => simp [attempts]
  | cons e es ih =>
    have he := hes e List.mem_cons_self
    rw [attempts, List.mem_append, mem_reports_iff_ownReports he hd,
      ih fun f hf => hes f (List.mem_cons_of_mem e hf)]
    simp

theorem mem_tokenEvents_scanned : .scanned t ∈ tokenEvents negated ts ↔ t ∈ ts := by
  induction ts generalizing negated with
  | nil => simp [tokenEvents]
  | cons u ts ih =>
    have hl : Event.scanned t ∉ u.literalEvents negated := by
      unfold Token.literalEvents
      split <;> simp
    simp [tokenEvents, ih, hl]

theorem mem_tokenEvents_literal :
    .literal l n ∈ tokenEvents negated ts ↔
      ∃ before t after, ts = before ++ t :: after ∧ t.kind = .number ∧
        l = t.literal (before.getLast?.elim negated (·.is Code.minus)) ∧ n = t.line := by
  induction ts generalizing negated with
  | nil => simp [tokenEvents]
  | cons u ts ih =>
    have hl : Event.literal l n ∈ u.literalEvents negated ↔
        u.kind = .number ∧ l = u.literal negated ∧ n = u.line := by
      unfold Token.literalEvents
      split <;> simp_all
    have hlast (before : List Token) :
        (u :: before).getLast?.elim negated (·.is Code.minus) =
          before.getLast?.elim (u.is Code.minus) (·.is Code.minus) := by
      rw [List.getLast?_cons]
      cases before.getLast? <;> rfl
    rw [tokenEvents, List.cons_append, List.mem_cons, List.mem_append, hl, ih]
    constructor
    · rintro (he | hu | ⟨before, t, after, rfl, hk, rfl, rfl⟩)
      · cases he
      · exact ⟨[], u, ts, rfl, hu⟩
      · exact ⟨u :: before, t, after, rfl, hk, by rw [hlast], rfl⟩
    · rintro ⟨before, t, after, hts, hk, rfl, rfl⟩
      cases before with
      | nil =>
        obtain ⟨rfl, rfl⟩ : u = t ∧ ts = after := by simpa using hts
        exact .inr (.inl ⟨hk, rfl, rfl⟩)
      | cons w before =>
        obtain ⟨rfl, rfl⟩ : u = w ∧ ts = before ++ t :: after := by simpa using hts
        exact .inr (.inr ⟨before, t, after, rfl, hk, by rw [hlast], rfl⟩)

theorem isScan_of_mem_tokenEvents (h : e ∈ tokenEvents negated ts) :
    (∃ t, e = .scanned t) ∨ ∃ l line, e = .literal l line := by
  induction ts generalizing negated with
  | nil => simp [tokenEvents] at h
  | cons t ts ih =>
    rw [tokenEvents, List.cons_append] at h
    rcases List.mem_cons.1 h with rfl | h
    · exact .inl ⟨t, rfl⟩
    rcases List.mem_append.1 h with h | h
    · unfold Token.literalEvents at h
      split at h
      · exact .inr ⟨_, _, List.mem_singleton.1 h⟩
      · cases h
    · exact ih h

theorem Scan.isOfScan_of_mem_events {scan : Scan} (h : e ∈ scan.events) : e.isOfScan = true := by
  rcases List.mem_append.1 h with h | h
  · rcases isScan_of_mem_tokenEvents h with ⟨t, rfl⟩ | ⟨l, line, rfl⟩ <;> rfl
  · rw [List.mem_singleton.1 h]
    rfl

theorem mem_tokenize_iff (hd : d.code ≠ 116) :
    d ∈ (tokenize source).2 ↔ ∃ e ∈ (Scan.ofBytes source).events, d ∈ e.ownReports :=
  mem_list_replay_fresh.trans
    (Run.mem_attempts_iff_ownReports (fun _ => Scan.isOfScan_of_mem_events) hd)

theorem Token.exists_faultyBy_of_mem_reports (ht : t ∈ scan.tokens) (hd : d ∈ t.reports) :
    ∃ c n, Scan.FaultyBy negates scan c n ∧ c.onLine n = d := by
  obtain ⟨c, hc, rfl⟩ := mem_reports.1 hd
  rcases of_cause?_eq_some hc with ⟨hk, rfl⟩ | ⟨⟨hk, hreal, hm⟩, rfl⟩
  · exact ⟨_, _, .character ht hk, rfl⟩
  · exact ⟨_, _, .malformed ht hk hreal hm, rfl⟩

theorem directlyAfterMinus_eq (before : List Token) :
    before.getLast?.elim false (·.is Code.minus) = directlyAfterMinus before := by
  unfold directlyAfterMinus
  cases before.getLast? <;> rfl

theorem mem_tokenize_iff_faultyBy :
    d ∈ (tokenize source).2 ∧ d.code ∈ [102, 117, 118, 119, 120] ↔
      ∃ c n, (Scan.ofBytes source).FaultyBy directlyAfterMinus c n ∧ c.onLine n = d := by
  constructor
  · rintro ⟨hd, hcode⟩
    rw [mem_tokenize_iff (by rintro h; simp [h] at hcode)] at hd
    obtain ⟨e, he, hd⟩ := hd
    rcases List.mem_append.1 he with he | he
    · rcases isScan_of_mem_tokenEvents he with ⟨t, rfl⟩ | ⟨l, line, rfl⟩
      · exact Token.exists_faultyBy_of_mem_reports (mem_tokenEvents_scanned.1 he) hd
      · obtain ⟨c, hc, rfl⟩ := Finding.mem_diagnostics.1 hd
        obtain ⟨before, t, after, hs, hk, rfl, rfl⟩ := mem_tokenEvents_literal.1 he
        rw [directlyAfterMinus_eq] at hc
        have ht : t ∈ (Scan.ofBytes source).tokens := by simp [hs]
        exact ⟨c, _, .range hs hk hc (code_of_mem_check_literal ht hk hc), rfl⟩
    · obtain rfl := List.mem_singleton.1 he
      obtain ⟨n, hn, rfl⟩ := List.mem_map.1 hd
      exact ⟨_, _, .string (by simpa using hn), rfl⟩
  · rintro ⟨c, n, hf, rfl⟩
    have hcode := hf.code
    refine ⟨?_, hcode⟩
    rw [mem_tokenize_iff (by rintro h; simp [show c.code = 116 from h] at hcode)]
    cases hf with
    | @character t ht hk =>
      refine ⟨.scanned t, List.mem_append_left _ (mem_tokenEvents_scanned.2 ht), ?_⟩
      simp [Event.ownReports, Token.reports, Token.cause?, hk]
    | string hq =>
      refine ⟨_, List.mem_append_right _ (List.mem_singleton_self _), ?_⟩
      simp [Event.ownReports, hq]
    | @malformed t ht hk hr hm =>
      refine ⟨.scanned t, List.mem_append_left _ (mem_tokenEvents_scanned.2 ht), ?_⟩
      simp [Event.ownReports, Token.reports, Token.cause?, hk, hr, hm]
    | range hs hk hc _ =>
      rw [← directlyAfterMinus_eq] at hc
      refine ⟨_, List.mem_append_left _
        (mem_tokenEvents_literal.2 ⟨_, _, _, hs, hk, rfl, rfl⟩), ?_⟩
      exact Finding.mem_diagnostics.2 ⟨_, hc, rfl⟩

/-- The analysis negates a number after a minus that only illegal characters separate from it. -/
theorem mem_analyze_iff_faultyBy {o : Options} (h : o.maxDiagnostics ≤ 0) :
    d ∈ (analyze source o).diagnostics ∧ d.code ∈ [102, 117, 118, 119, 120] ↔
      ∃ c n, (Scan.ofBytes source).FaultyBy (endsWithMinus false) c n ∧ c.onLine n = d := by
  simp only [← Scan.faulty_iff_faultyBy]
  rw [mem_diagnostics_analyze h]
  constructor
  · rintro ⟨hd, hcode⟩
    obtain ⟨before, e, after, htrace, hr⟩ := Run.exists_of_mem_attempts hd
    exact Scan.exists_faulty_of_mem_reports htrace hr hcode
  · rintro ⟨c, n, hf, rfl⟩
    obtain ⟨e, he, hr⟩ := hf.exists_event
    obtain ⟨before, after, htrace⟩ := List.append_of_mem he
    refine ⟨?_, hf.code⟩
    rw [htrace]
    exact Run.mem_attempts_of_mem_reports (hr _)

theorem endsWithMinus_of_legal (h : ∀ t ∈ before, t.kind ≠ .unknown) :
    endsWithMinus false before = directlyAfterMinus before := by
  have hall : before.filter (·.kind ≠ .unknown) = before := by
    rw [List.filter_eq_self]
    intro t ht
    simpa using h t ht
  rw [endsWithMinus, hall, directlyAfterMinus_eq]

/-- The list of tokens and the analysis report the same illegal characters, open strings and
malformed literals, and in the list the range of a number is checked with the sign of the token
right before it. So they report the same literals out of range unless an illegal character cuts a
number off from its minus. -/
theorem tokenize_agrees_unless_minus_cut_off (source : List UInt8) (o : Options)
    (h : o.maxDiagnostics ≤ 0) :
    (∀ d : Diagnostic, d.code ∈ [102, 117, 118] →
        (d ∈ (tokenize source).2 ↔ d ∈ (analyze source o).diagnostics)) ∧
      (∀ d : Diagnostic, d.code ∈ [119, 120] →
        (d ∈ (tokenize source).2 ↔ ∃ before t after,
          (Scan.ofBytes source).tokens = before ++ t :: after ∧ t.kind = .number ∧
            d ∈ (t.literal (directlyAfterMinus before)).check.diagnostics t.line)) ∧
      ((∀ before t after, (Scan.ofBytes source).tokens = before ++ t :: after →
          t.kind = .number → endsWithMinus false before = directlyAfterMinus before) →
        ∀ d : Diagnostic, d.code ∈ [102, 117, 118, 119, 120] →
          (d ∈ (tokenize source).2 ↔ d ∈ (analyze source o).diagnostics)) := by
  have htokens (d : Diagnostic) (hd : d.code ∈ [102, 117, 118, 119, 120]) :
      d ∈ (tokenize source).2 ↔
        ∃ c n, (Scan.ofBytes source).FaultyBy directlyAfterMinus c n ∧ c.onLine n = d := by
    rw [← mem_tokenize_iff_faultyBy, and_iff_left hd]
  have hanalysis (d : Diagnostic) (hd : d.code ∈ [102, 117, 118, 119, 120]) :
      d ∈ (analyze source o).diagnostics ↔
        ∃ c n, (Scan.ofBytes source).FaultyBy (endsWithMinus false) c n ∧ c.onLine n = d := by
    rw [← mem_analyze_iff_faultyBy h, and_iff_left hd]
  refine ⟨?_, ?_, ?_⟩
  · intro d hd
    have hcode : d.code ∈ [102, 117, 118, 119, 120] := List.mem_append_left [119, 120] hd
    rw [htokens d hcode, hanalysis d hcode]
    constructor
    · rintro ⟨c, n, hf, rfl⟩
      exact ⟨c, n, hf.of_code hd, rfl⟩
    · rintro ⟨c, n, hf, rfl⟩
      exact ⟨c, n, hf.of_code hd, rfl⟩
  · intro d hd
    have hcode : d.code ∈ [102, 117, 118, 119, 120] := List.mem_append_right [102, 117, 118] hd
    rw [htokens d hcode]
    constructor
    · rintro ⟨c, n, hf, rfl⟩
      cases hf with
      | range hs hk hc _ => exact ⟨_, _, _, hs, hk, Finding.mem_diagnostics.2 ⟨c, hc, rfl⟩⟩
      | _ => simp [Cause.code_onLine, Cause.code] at hd
    · rintro ⟨before, t, after, hs, hk, hd'⟩
      obtain ⟨c, hc, rfl⟩ := Finding.mem_diagnostics.1 hd'
      exact ⟨c, _, .range hs hk hc (by simpa [Cause.code_onLine] using hd), rfl⟩
  · intro hsame d hd
    rw [htokens d hd, hanalysis d hd]
    constructor
    · rintro ⟨c, n, hf, rfl⟩
      exact ⟨c, n, hf.congr fun before t after hs hk => (hsame before t after hs hk).symm, rfl⟩
    · rintro ⟨c, n, hf, rfl⟩
      exact ⟨c, n, hf.congr hsame, rfl⟩

/-- A source with a literal out of range after a minus. -/
def negatedLiteral : List UInt8 := "- 40000".toUTF8.toList

theorem tokenize_agrees_negatedLiteral :
    (0 : Int) ≤ 0 ∧ ((Cause.integerRange "-40000").onLine 1 ∈ (tokenize negatedLiteral).2 ↔
      (Cause.integerRange "-40000").onLine 1 ∈
        (analyze negatedLiteral ⟨false, 0⟩).diagnostics) := by
  refine ⟨Int.le_refl 0, (tokenize_agrees_unless_minus_cut_off negatedLiteral ⟨false, 0⟩
    (Int.le_refl 0)).2.2 ?_ _ (by decide)⟩
  have hlegal : ∀ t ∈ (Scan.ofBytes negatedLiteral).tokens, t.kind ≠ .unknown := by
    decide +kernel
  intro before t after hs _
  apply endsWithMinus_of_legal
  intro u hu
  exact hlegal u (by simp [hs, hu])

/-- A source with an illegal character between a minus and a number. -/
def cutOffMinus : List UInt8 := "-@32768".toUTF8.toList

/-- The list of tokens reports a number in range if an illegal character cuts it off from its
minus. -/
theorem not_forall_tokenize_agrees :
    ¬ ∀ (source : List UInt8) (o : Options), o.maxDiagnostics ≤ 0 →
      ∀ d : Diagnostic, d.code ∈ [102, 117, 118, 119, 120] →
        (d ∈ (tokenize source).2 ↔ d ∈ (analyze source o).diagnostics) := by
  intro h
  have hboth := h cutOffMinus ⟨false, 0⟩ (Int.le_refl 0) ((Cause.integerRange "32768").onLine 1)
    (by decide)
  exact absurd (hboth.1 (by decide +kernel)) (by decide +kernel)

end PascalCheck
