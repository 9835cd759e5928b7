import PascalCheck.Proofs.Faults
import PascalCheck.Proofs.Numerals

namespace PascalCheck
set_option autoImplicit true

/-- A literal that is fine by itself is fine for every type but the integers, if it is real. -/
theorem Literal.check_eq_pass {l : Literal} {type : ValueType} (h : l.check.ok = true)
    (ht : ¬ (l.isReal = true ∧ type = .integer)) : type.check l.text = .pass := by
  cases hr : l.isReal with
  | true =>
    have hl : l.check = ValueType.real.check l.text := by simp [check, Literal.type, hr]
    cases type with
    | integer => exact absurd ⟨hr, rfl⟩ ht
    | real =>
      rw [hl] at h
      exact ValueType.check_eq_pass_of_ok h
    | none => rfl
    | other n => rfl
  | false =>
    have hl : l.check = ValueType.integer.check l.text := by simp [check, Literal.type, hr]
    rw [hl] at h
    cases type with
    | integer => exact ValueType.check_eq_pass_of_ok h
    | real =>
      cases hp : Numeral.parseDecimal l.text with
      | error e => cases e <;> simp [ValueType.check, hp, Finding.fail] at h
      | ok v => simp [ValueType.check, Numeral.classifyReal_of_parseDecimal hp]
    | none => rfl
    | other n => rfl

theorem SymbolTable.mem_check_of_mem_checkAssign {t : SymbolTable}
    (h : c ∈ (t.checkAssign name l).causes) (hc : c.isOfLiteral = true) : c ∈ l.check.causes := by
  cases hs : t.lookup? name with
  | none =>
    rcases (mem_causes_checkAssign_none hs).1 h with rfl | h
    · cases hc
    · exact h
  | some s =>
    rcases (mem_causes_checkAssign_some hs).1 h with
      h | ⟨-, -, rfl⟩ | ⟨-, -, -, rfl⟩ | ⟨hok, -, ht, h⟩
    · exact h
    · cases hc
    · cases hc
    · rw [Literal.check_eq_pass hok ht] at h
      cases h

/-- The last token before a place that is no illegal character is a minus. Without such a token
the answer is `negated`. -/
def endsWithMinus (negated : Bool) (before : List Token) : Bool :=
  (before.filter (·.kind ≠ .unknown)).getLast?.elim negated (·.is Code.minus)

theorem endsWithMinus_cons (negated : Bool) (t : Token) (ts : List Token) :
    endsWithMinus negated (t :: ts) =
      if t.kind = .unknown then endsWithMinus negated ts
      else endsWithMinus (t.is Code.minus) ts := by
  unfold endsWithMinus
  split
  · rename_i hk
    simp [hk]
  · rename_i hk
    rw [List.filter_cons_of_pos (by simpa using hk), List.getLast?_cons]
    cases (ts.filter (·.kind ≠ .unknown)).getLast? <;> rfl

theorem mem_readEvents_scanned : .scanned t ∈ readEvents negated ts ↔ t ∈ ts := by
  induction ts generalizing negated with
  | nil => simp [readEvents]
  | cons u ts ih =>
    rw [readEvents]
    split
    · simp [ih]
    · have hl : Event.scanned t ∉ u.literalEvents negated := by
        unfold Token.literalEvents
        split <;> simp
      simp [ih, hl]

theorem ended_not_mem_readEvents : Event.ended q ∉ readEvents negated ts := by
  intro h
  rcases isScan_of_mem_readEvents h with ⟨t, ht⟩ | ⟨l, line, hl⟩
  · cases ht
  · cases hl

/-- Each number is checked once, with the sign of a minus before it. -/
theorem mem_readEvents_literal :
    .literal l n ∈ readEvents negated ts ↔
      ∃ before t after, ts = before ++ t :: after ∧ t.kind = .number ∧
        l = t.literal (endsWithMinus negated before) ∧ n = t.line := by
  induction ts generalizing negated with
  | nil => simp [readEvents]
  | cons u ts ih =>
    -- A number of the list is its first token or a number of the rest, after this token.
    have hsplit (P : List Token → Token → Prop) :
        (∃ before t after, u :: ts = before ++ t :: after ∧ P before t) ↔
          P [] u ∨ ∃ before t after, ts = before ++ t :: after ∧ P (u :: before) t := by
      constructor
      · rintro ⟨before, t, after, hts, hp⟩
        cases before with
        | nil =>
          obtain ⟨rfl, rfl⟩ : u = t ∧ ts = after := by simpa using hts
          exact .inl hp
        | cons v before =>
          obtain ⟨rfl, rfl⟩ : u = v ∧ ts = before ++ t :: after := by simpa using hts
          exact .inr ⟨before, t, after, rfl, hp⟩
      · rintro (hp | ⟨before, t, after, rfl, hp⟩)
        · exact ⟨[], u, ts, rfl, hp⟩
        · exact ⟨u :: before, t, after, rfl, hp⟩
    rw [hsplit fun before t =>
      t.kind = .number ∧ l = t.literal (endsWithMinus negated before) ∧ n = t.line, readEvents]
    simp only [endsWithMinus_cons]
    split
    · rename_i hk
      simp [ih, hk]
    · rename_i hk
      have hl : Event.literal l n ∈ u.literalEvents negated ↔
          u.kind = .number ∧ l = u.literal negated ∧ n = u.line := by
        unfold Token.literalEvents
        split <;> simp_all
      simp [ih, hl, endsWithMinus]

theorem code_of_mem_check_literal (h : t ∈ (Scan.ofBytes source).tokens) (hk : t.kind = .number)
    (hc : c ∈ (t.literal negated).check.causes) : c.code = 119 ∨ c.code = 120 := by
  rcases ValueType.mem_causes_check hc with rfl | rfl | rfl
  · exfalso
    cases hr : t.isReal with
    | true =>
      simp only [Literal.check, Literal.type, Token.literal, hr, if_true, ValueType.check] at hc
      split at hc
      · cases hc
      · cases hc
      · simp [Finding.fail] at hc
    | false =>
      obtain ⟨hne, hd⟩ := Scan.digits_of_mem h hk hr
      have hsign : ∃ negative, Numeral.splitSign (t.literal negated).text.toList =
          (negative, t.lexeme.toList) := by
        cases negated with
        | true => exact ⟨true, by simp [Token.literal, Numeral.splitSign]⟩
        | false => exact ⟨false, Numeral.splitSign_of_head fun c hc =>
            Numeral.isDigit_ne_sign (hd c (List.mem_of_mem_head? hc))⟩
      obtain ⟨negative, hs⟩ := hsign
      have hp := Numeral.parseDecimal_ne_malformed hs hne hd
      have htype : (t.literal negated).type = .integer := by simp [Literal.type, Token.literal, hr]
      rw [Literal.check, htype, ValueType.check] at hc
      split at hc
      · rename_i hm
        exact hp hm
      · simp [Finding.fail] at hc
      · split at hc
        · cases hc
        · simp [Finding.fail] at hc
  · exact .inl rfl
  · exact .inr rfl

/-- A check of a literal comes right after its token or after an equal check. -/
def Anticipated (before : List Event) : Event → Prop
  | .literal l n => .literal l n ∈ before ∨
      ∃ t negated, before.getLast? = some (.scanned t) ∧ t.kind = .number ∧
        l = t.literal negated ∧ n = t.line
  | .assign _ l n => .literal l n ∈ before
  | _ => True

theorem Anticipated.mono (h : Anticipated before e) (front : List Event) :
    Anticipated (front ++ before) e := by
  cases e with
  | literal l n =>
    refine h.imp (List.mem_append_right front) ?_
    rintro ⟨t, negated, hlast, ht⟩
    exact ⟨t, negated, by simp [hlast], ht⟩
  | assign name l n => exact List.mem_append_right front h
  | _ => trivial

def InOrder (es : List Event) : Prop :=
  ∀ before e after, es = before ++ e :: after → Anticipated before e

theorem InOrder.append (h : InOrder es) (k : InOrder fs) : InOrder (es ++ fs) := by
  intro before e after hsplit
  rcases List.append_eq_append_iff.1 hsplit with ⟨gs, rfl, hgs⟩ | ⟨gs, rfl, hgs⟩
  · exact (k gs e after hgs).mono es
  · cases gs with
    | nil =>
      have he := (k [] e after hgs.symm).mono before
      rwa [List.append_nil] at he
    | cons g gs =>
      obtain ⟨rfl, rfl⟩ : e = g ∧ after = gs ++ fs := by simpa using hgs
      exact h before e gs rfl

theorem InOrder.snoc (h : InOrder es) (he : Anticipated es e) : InOrder (es ++ [e]) := by
  intro before f after hsplit
  rcases List.append_eq_append_iff.1 hsplit with ⟨gs, rfl, hgs⟩ | ⟨gs, rfl, hgs⟩
  · cases gs with
    | nil =>
      obtain ⟨rfl, -⟩ : e = f ∧ after = [] := by simpa using hgs
      rwa [List.append_nil]
    | cons g gs => simp at hgs
  · cases gs with
    | nil =>
      obtain ⟨rfl, -⟩ : f = e ∧ after = [] := by simpa using hgs
      rwa [List.append_nil] at he
    | cons g gs =>
      obtain ⟨rfl, rfl⟩ : f = g ∧ after = gs ++ [e] := by simpa using hgs
      exact h before f gs rfl

theorem inOrder_of_forall (h : ∀ e ∈ es, ∀ before, Anticipated before e) : InOrder es := by
  rintro before e after rfl
  exact h e (by simp) before

theorem inOrder_reading (hp : ∀ e ∈ pending, ∃ t, e = .scanned t) (t : Token) (negated : Bool) :
    InOrder (pending ++ .scanned t :: t.literalEvents negated) := by
  have hpending : InOrder pending := by
    apply inOrder_of_forall
    intro e he before
    obtain ⟨t, rfl⟩ := hp e he
    trivial
  have htoken : InOrder (pending ++ [.scanned t]) := hpending.snoc trivial
  unfold Token.literalEvents
  split
  · rename_i hk
    have hliteral := htoken.snoc (e := .literal (t.literal negated) t.line)
      (.inr ⟨t, negated, by simp, hk, rfl, rfl⟩)
    simpa using hliteral
  · exact htoken

theorem Reading.inOrder_gather (hp : ∀ e ∈ pending, ∃ t, e = .scanned t) (negated : Bool)
    (ts : List Token) :
    (∀ r ∈ (gather negated pending ts).1, InOrder r.events) ∧
      ∀ e ∈ (gather negated pending ts).2, ∃ t, e = .scanned t := by
  induction ts generalizing negated pending with
  | nil => exact ⟨by simp [gather], hp⟩
  | cons t ts ih =>
    rw [gather]
    split
    · apply ih
      intro e he
      rcases List.mem_append.1 he with he | he
      · exact hp e he
      · exact ⟨t, List.mem_singleton.1 he⟩
    · obtain ⟨hrest, hlast⟩ := @ih [] (by simp) (t.is Code.minus)
      refine ⟨?_, hlast⟩
      intro r hr
      rcases List.mem_cons.1 hr with rfl | hr
      · exact inOrder_reading hp t negated
      · exact hrest r hr

namespace Reader

/-- The checks of literals so far are in order, and so are those to come with each token. -/
structure Orderly (s : Reader) : Prop where
  trace : InOrder s.trace.toList
  rest : ∀ r ∈ s.rest, InOrder r.events
  final : InOrder s.final.events

theorem Orderly.advance (h : Orderly s) : s.advance.Orderly := by
  cases hr : s.rest with
  | nil =>
    rw [advance_of_rest_nil hr]
    refine ⟨?_, h.rest, h.final⟩
    simpa using h.trace.snoc (e := .ended none) trivial
  | cons r rs =>
    have hrest : ∀ r' ∈ rs, InOrder r'.events := by
      intro r' hr'
      exact h.rest r' (by simp [hr, hr'])
    have hnext : InOrder (rs.headD s.final).events := by
      cases rs with
      | nil => exact h.final
      | cons r' rs => exact hrest r' (by simp)
    rw [advance_of_rest_cons hr]
    refine ⟨?_, hrest, h.final⟩
    simpa using h.trace.append hnext

theorem Orderly.emit (h : Orderly s) (he : Anticipated s.trace.toList e) : (s.emit e).Orderly := by
  refine ⟨?_, h.rest, h.final⟩
  simpa [Reader.emit] using h.trace.snoc he

theorem Complaint.anticipated (h : Complaint s e) (before : List Event) : Anticipated before e := by
  cases h <;> trivial

theorem Declaring.anticipated (h : Declaring s e) (before : List Event) : Anticipated before e := by
  cases h with
  | complaint h => exact h.anticipated before
  | declare symbol => trivial

theorem Checking.anticipated (h : Checking s e) : Anticipated s.trace.toList e := by
  cases h with
  | complaint h => exact h.anticipated _
  | literal h => exact .inl h
  | assign h _ => exact h
  | _ => trivial

theorem orderly_ofScan (scan : Scan) : (ofScan scan).Orderly := by
  obtain ⟨hrest, hlast⟩ := @Reading.inOrder_gather [] (by simp) false scan.tokens
  have hfinal : InOrder ((Reading.gather false [] scan.tokens).2 ++ [.ended scan.openQuote]) := by
    apply inOrder_of_forall
    intro e he before
    rcases List.mem_append.1 he with he | he
    · obtain ⟨t, rfl⟩ := hlast e he
      trivial
    · obtain rfl := List.mem_singleton.1 he
      trivial
  refine ⟨?_, hrest, hfinal⟩
  simp only [ofScan, start]
  cases hg : (Reading.gather false [] scan.tokens).1 with
  | nil => simpa using hfinal
  | cons r rs => simpa using hrest r (by simp [hg])

end Reader

theorem inOrder_trace (source : List UInt8) : InOrder (trace source) := by
  have hdeclared := (Reader.reads_declared (Reader.ofScan (Scan.ofBytes source))).invariant
    (Reader.orderly_ofScan _) (fun _ _ _ => Reader.Orderly.advance)
    fun s e he hs => hs.emit (he.anticipated _)
  have hend := (Reader.reads_body (Reader.sound_ofScan source)).invariant hdeclared
    (fun _ _ _ => Reader.Orderly.advance) fun s e he hs => hs.emit he.anticipated
  exact hend.trace

theorem mem_readEvents_of_literal (h : .literal l n ∈ trace source) :
    .literal l n ∈ readEvents false (Scan.ofBytes source).tokens := by
  have hbody := (Reader.reads_body (Reader.sound_ofScan source)).invariant
    (I := fun u => .literal l n ∈ u.story →
      .literal l n ∈ (Reader.ofScan (Scan.ofBytes source)).story) ?_ ?_ ?_
  · have hstart := hbody (by rwa [← story_readerAtEnd] at h)
    rw [Reader.story_ofScan] at hstart
    simpa using hstart
  · intro hd
    rcases (Reader.reads_declared _).mem_story hd with hd | ⟨u, hu⟩
    · exact hd
    · cases hu with
      | complaint hu => cases hu
  · intro u t ht hu
    rwa [Reader.story_advance ht]
  · intro u e he hu hmem
    rcases Reader.mem_story_emit.1 hmem with rfl | hmem
    · cases he with
      | complaint he => cases he
      | literal he => exact hu (List.mem_append_left _ he)
    · exact hu hmem

/-- What taking the tokens tells is part of every reading. -/
theorem mem_trace_of_mem_start (h : e ∈ (Reader.ofScan (Scan.ofBytes source)).story) :
    e ∈ trace source := by
  rw [← story_readerAtEnd]
  exact (Reader.reads_body (Reader.sound_ofScan source)).story_subset
    ((Reader.reads_declared _).story_subset h)

theorem mem_start_of_mem_trace (h : e ∈ trace source)
    (he : (∃ t, e = .scanned t) ∨ ∃ q, e = .ended q) :
    e ∈ (Reader.ofScan (Scan.ofBytes source)).story := by
  rw [← story_readerAtEnd] at h
  rcases (Reader.reads_body (Reader.sound_ofScan source)).mem_story h with h | ⟨u, hu⟩
  · rcases (Reader.reads_declared _).mem_story h with h | ⟨u, hu⟩
    · exact h
    · cases hu with
      | complaint hu => cases hu <;> simp at he
      | declare s => simp at he
  · cases hu with
    | complaint hu => cases hu <;> simp at he
    | _ => simp at he

theorem mem_tokens_of_scanned (h : .scanned t ∈ trace source) :
    t ∈ (Scan.ofBytes source).tokens := by
  have hstart := mem_start_of_mem_trace h (.inl ⟨t, rfl⟩)
  rw [Reader.story_ofScan] at hstart
  exact mem_readEvents_scanned.1 (by simpa using hstart)

theorem openQuote_of_ended (h : .ended q ∈ trace source) : (Scan.ofBytes source).openQuote = q := by
  have hstart := mem_start_of_mem_trace h (.inr ⟨q, rfl⟩)
  rw [Reader.story_ofScan] at hstart
  rcases List.mem_append.1 hstart with hstart | hstart
  · exact absurd hstart ended_not_mem_readEvents
  · have hq := List.mem_singleton.1 hstart
    cases hq
    rfl

/-- The lexical problems of a scan and its literals out of range. -/
inductive Scan.Faulty (scan : Scan) : Cause → Nat → Prop
  | character : t ∈ scan.tokens → t.kind = .unknown →
      Faulty scan (.invalidCharacter t.lexeme) t.line
  | string : scan.openQuote = some n → Faulty scan .unterminatedString n
  | malformed : t ∈ scan.tokens → t.kind = .number → t.isReal = true →
      Numeral.classifyReal t.lexeme = .malformed → Faulty scan (.invalidLiteral t.lexeme) t.line
  | range : scan.tokens = before ++ t :: after → t.kind = .number →
      c ∈ (t.literal (endsWithMinus false before)).check.causes → c.code = 119 ∨ c.code = 120 →
      Faulty scan c t.line

theorem Scan.Faulty.exists_event (h : (Scan.ofBytes source).Faulty c n) :
    ∃ e ∈ trace source, ∀ r : Run, c.onLine n ∈ r.reports e := by
  have hstart {e : Event} (he : e ∈ readEvents false (Scan.ofBytes source).tokens) :
      e ∈ trace source := by
    apply mem_trace_of_mem_start
    rw [Reader.story_ofScan]
    exact List.mem_append_left _ he
  cases h with
  | @character t ht hk =>
    refine ⟨.scanned t, hstart (mem_readEvents_scanned.2 ht), fun r => ?_⟩
    exact List.mem_append_right _ (by simp [Token.reports, Token.cause?, hk])
  | string hq =>
    refine ⟨.ended (Scan.ofBytes source).openQuote, mem_trace_of_mem_start ?_, fun r => ?_⟩
    · rw [Reader.story_ofScan]
      exact List.mem_append_right _ (List.mem_singleton_self _)
    · exact List.mem_append_left _ (by simp [hq])
  | @malformed t ht hk hr hm =>
    refine ⟨.scanned t, hstart (mem_readEvents_scanned.2 ht), fun r => ?_⟩
    exact List.mem_append_right _ (by simp [Token.reports, Token.cause?, hk, hr, hm])
  | range hs hk hc hcode =>
    refine ⟨_, hstart (mem_readEvents_literal.2 ⟨_, _, _, hs, hk, rfl, rfl⟩), fun r => ?_⟩
    exact Finding.mem_diagnostics.2 ⟨_, hc, rfl⟩

theorem Scan.Faulty.code {scan : Scan} (h : scan.Faulty c n) :
    (c.onLine n).code ∈ [102, 117, 118, 119, 120] := by
  rw [Cause.code_onLine]
  cases h with
  | range _ _ _ hcode => rcases hcode with hc | hc <;> simp [hc]
  | _ => simp [Cause.code]

/-- A literal that is checked is faulty only as its token is. -/
theorem Scan.faulty_of_mem_check (h : .literal l n ∈ trace source) (hc : c ∈ l.check.causes) :
    (Scan.ofBytes source).Faulty c n := by
  obtain ⟨before, t, after, hs, hk, rfl, rfl⟩ :=
    mem_readEvents_literal.1 (mem_readEvents_of_literal h)
  have ht : t ∈ (Scan.ofBytes source).tokens := by simp [hs]
  exact .range hs hk hc (code_of_mem_check_literal ht hk hc)

theorem Scan.exists_faulty_of_mem_reports (htrace : trace source = before ++ e :: after)
    (hd : d ∈ (Run.fresh.replay before).reports e) (hcode : d.code ∈ [102, 117, 118, 119, 120]) :
    ∃ c n, (Scan.ofBytes source).Faulty c n ∧ c.onLine n = d := by
  have hmem : e ∈ trace source := by simp [htrace]
  have hunclosed (r : Run) : d ∉ r.unclosedReports := by
    intro h
    obtain ⟨f, -, rfl⟩ := List.mem_map.1 h
    exact absurd hcode (by simp [Cause.code_onLine, Cause.code])
  cases e with
  | scanned t =>
    have ht := mem_tokens_of_scanned hmem
    rcases List.mem_append.1 hd with hd | hd
    · obtain ⟨f, -, rfl⟩ := List.mem_map.1 hd
      exact absurd hcode (by simp [Cause.code_onLine, Cause.code])
    · obtain ⟨c, hc, rfl⟩ := Token.mem_reports.1 hd
      rcases Token.of_cause?_eq_some hc with ⟨hk, rfl⟩ | ⟨⟨hk, hreal, hm⟩, rfl⟩
      · exact ⟨_, _, .character ht hk, rfl⟩
      · exact ⟨_, _, .malformed ht hk hreal hm, rfl⟩
  | ended q =>
    rcases List.mem_append.1 hd with hd | hd
    · obtain ⟨n, hn, rfl⟩ := List.mem_map.1 hd
      have hq : q = some n := by simpa using hn
      exact ⟨_, _, .string ((openQuote_of_ended hmem).trans hq), rfl⟩
    · exact absurd hd (hunclosed _)
  | balance => exact absurd hd (hunclosed _)
  | literal l n =>
    obtain ⟨c, hc, rfl⟩ := Finding.mem_diagnostics.1 hd
    exact ⟨c, n, faulty_of_mem_check hmem hc, rfl⟩
  | fault c n =>
    obtain rfl := List.mem_singleton.1 hd
    have hc := isGrammatical_of_fault hmem
    cases c <;> simp_all [Cause.isGrammatical, Cause.code_onLine, Cause.code]
  | declare s =>
    obtain ⟨c, hc, rfl⟩ := Finding.mem_diagnostics.1 hd
    obtain rfl := Checker.mem_causes_declareFinding hc
    exact absurd hcode (by simp [Cause.code_onLine, Cause.code])
  | use name n =>
    obtain ⟨c, hc, rfl⟩ := Finding.mem_diagnostics.1 hd
    obtain ⟨-, rfl⟩ := SymbolTable.mem_causes_checkDeclared.1 hc
    exact absurd hcode (by simp [Cause.code_onLine, Cause.code])
  | assign name l n =>
    obtain ⟨c, hc, rfl⟩ := Finding.mem_diagnostics.1 hd
    have hliteral : c.isOfLiteral = true := by
      rcases SymbolTable.isOf_of_mem_checkAssign hc with h | h
      · exact h
      · cases c <;> simp_all [Cause.isOfNames, Cause.code_onLine, Cause.code]
    -- The check of the literal itself came before.
    have hbefore : .literal l n ∈ before := inOrder_trace source before _ after htrace
    have hl : .literal l n ∈ trace source := by simp [htrace, hbefore]
    have hcheck := SymbolTable.mem_check_of_mem_checkAssign hc hliteral
    exact ⟨c, n, faulty_of_mem_check hl hcheck, rfl⟩
  | assignName target source n =>
    obtain ⟨c, hc, rfl⟩ := Finding.mem_diagnostics.1 hd
    have hnames := SymbolTable.isOfNames_of_mem_checkAssignName hc
    cases c <;> simp_all [Cause.isOfNames, Cause.code_onLine, Cause.code]

def Event.checksLiteral : Event → Bool
  | .literal _ _ | .assign _ _ _ => true
  | _ => false

theorem mem_recorded_of_literal (h : .literal l n ∈ before) (hc : c ∈ l.check.causes) :
    c.onLine n ∈ (Run.fresh.replay before).checker.sink.list := by
  obtain ⟨front, back, rfl⟩ := List.append_of_mem h
  rw [mem_list_replay_fresh]
  exact Run.mem_attempts_of_mem_reports (Finding.mem_diagnostics.2 ⟨c, hc, rfl⟩)

/-- The scan of a source alone determines the lexical problems and the faulty literals that are
reported, and a check of a literal that is not made with its token finds none that is not recorded
already. -/
theorem literals_determined_by_scan (source : List UInt8) (o : Options)
    (h : o.maxDiagnostics ≤ 0) :
    (∀ d, d ∈ (analyze source o).diagnostics ∧ d.code ∈ [102, 117, 118, 119, 120] ↔
        ∃ c n, (Scan.ofBytes source).Faulty c n ∧ c.onLine n = d) ∧
      ∀ before e after, trace source = before ++ e :: after → e.checksLiteral = true →
        (∃ t negated, before.getLast? = some (.scanned t) ∧ t.kind = .number ∧
          e = .literal (t.literal negated) t.line) ∨
        ∀ d ∈ (Run.fresh.replay before).reports e, d.code ∈ [102, 119, 120] →
          d ∈ (Run.fresh.replay before).checker.sink.list := by
  refine ⟨?_, ?_⟩
  · intro d
    rw [mem_diagnostics_analyze h]
    constructor
    · rintro ⟨hd, hcode⟩
      obtain ⟨before, e, after, htrace, hr⟩ := Run.exists_of_mem_attempts hd
      exact Scan.exists_faulty_of_mem_reports htrace hr hcode
    · rintro ⟨c, n, hf, rfl⟩
      obtain ⟨e, he, hr⟩ := hf.exists_event
      obtain ⟨before, after, htrace⟩ := List.append_of_mem he
      refine ⟨?_, hf.code⟩
      rw [htrace]
      exact Run.mem_attempts_of_mem_reports (hr _)
  · intro before e after htrace he
    have horder := inOrder_trace source before e after htrace
    cases e with
    | literal l n =>
      rcases horder with hl | ⟨t, negated, hlast, hk, rfl, rfl⟩
      · right
        intro d hd _
        obtain ⟨c, hc, rfl⟩ := Finding.mem_diagnostics.1 hd
        exact mem_recorded_of_literal hl hc
      · exact .inl ⟨t, negated, hlast, hk, rfl⟩
    | assign name l n =>
      right
      intro d hd hcode
      obtain ⟨c, hc, rfl⟩ := Finding.mem_diagnostics.1 hd
      have hliteral := Cause.isOfLiteral_iff.2 hcode
      exact mem_recorded_of_literal horder (SymbolTable.mem_check_of_mem_checkAssign hc hliteral)
    | _ => cases he

/-- A source with a literal out of range in a body that is skipped. -/
def farLiteral : List UInt8 := "procedure p; begin @ -40000 end; begin end.".toUTF8.toList

theorem faulty_farLiteral :
    (0 : Int) ≤ 0 ∧ ∃ c n, (Scan.ofBytes farLiteral).Faulty c n ∧
      c.onLine n = (Cause.integerRange "-40000").onLine 1 :=
  ⟨Int.le_refl 0, ((literals_determined_by_scan farLiteral ⟨false, 0⟩ (Int.le_refl 0)).1 _).1
    (by decide +kernel)⟩

end PascalCheck
