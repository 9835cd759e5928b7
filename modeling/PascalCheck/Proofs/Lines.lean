import PascalCheck.Proofs.DeclaredNames
import PascalCheck.Proofs.TokenChecks

namespace PascalCheck
set_option autoImplicit true

theorem Position.line_after (p : Position) (bs : List UInt8) :
    (p.after bs).line = p.line + bs.count 0x0A := by
  induction bs generalizing p with
  | nil => rfl
  | cons b bs ih =>
    have hnewline : '\n'.toUInt8 = 0x0A := rfl
    rw [after_cons, ih, step, hnewline, List.count_cons]
    by_cases hb : b = 0x0A
    · simp only [hb, if_true, beq_self_eq_true]
      omega
    · have hne : (b == 0x0A) = false := by simpa using hb
      rw [if_neg hb, hne, if_neg Bool.false_ne_true]
      split <;> rfl

/-- A line on which a token of a scan or the end of the input stands. -/
def Scan.HasLine (scan : Scan) (n : Int) : Prop :=
  (∃ t ∈ scan.tokens, n = t.line) ∨ n = scan.final.line

namespace Layout

theorem line_of_mem_tokensFrom {pieces : List (List Filler × Lexeme)} {t : Token}
    (h : t ∈ tokensFrom p pieces) :
    p.line ≤ t.line ∧ t.line ≤ p.line + (pieces.flatMap pieceBytes).count 0x0A := by
  induction pieces generalizing p with
  | nil => simp [tokensFrom] at h
  | cons piece pieces ih =>
    obtain ⟨fs, lexeme⟩ := piece
    simp only [List.flatMap_cons, pieceBytes, List.count_append]
    rcases List.mem_cons.1 h with rfl | h
    · have hline := Position.line_after p (Filler.allBytes fs)
      simp only [token, Token.line]
      omega
    · have hrest := ih h
      rw [Position.line_after, Position.line_after] at hrest
      omega

end Layout

theorem Filler.line_of_openQuoteLine? {fs : List Filler} (h : openQuoteLine? p fs = some n) :
    p.line ≤ n ∧ n ≤ p.line + (allBytes fs).count 0x0A := by
  fun_induction openQuoteLine? p fs with
  | case1 => cases h
  | case2 p body fs =>
    cases h
    omega
  | case3 p f fs _ ih =>
    have hrest := ih h
    rw [Position.line_after] at hrest
    simp only [allBytes, List.flatMap_cons, List.count_append] at hrest ⊢
    omega

namespace Scan

theorem count_ofBytes (source : List UInt8) :
    ((Layout.ofBytes source).pieces.flatMap Layout.pieceBytes).count 0x0A +
      (Filler.allBytes (Layout.ofBytes source).tail).count 0x0A = source.count 0x0A := by
  rw [← List.count_append]
  exact congrArg (List.count 0x0A) (Layout.bytes_ofBytes source)

theorem HasLine.within (h : (ofBytes source).HasLine n) :
    1 ≤ n ∧ n ≤ 1 + source.count 0x0A := by
  rcases h with ⟨t, ht, rfl⟩ | rfl
  · have hline := Layout.line_of_mem_tokensFrom ht
    have hcount := count_ofBytes source
    have hstart : Position.start.line = 1 := rfl
    omega
  · rw [Token.line, place_final, Position.line_after]
    have hstart : Position.start.line = 1 := rfl
    omega

theorem openQuote_within {n : Nat} (h : (ofBytes source).openQuote = some n) :
    1 ≤ n ∧ n ≤ 1 + source.count 0x0A := by
  have hline := Filler.line_of_openQuoteLine? h
  have hcount := count_ofBytes source
  have hstart : Position.start.line = 1 := rfl
  rw [Layout.tailPlace, Position.line_after] at hline
  omega

end Scan

/-- Whatever the event reports by itself belongs on a line with the property, an unterminated
string apart. -/
def Event.LineIn (L : Int → Prop) : Event → Prop
  | .scanned t => L t.line
  | .literal _ n | .fault _ n | .use _ n | .assign _ _ n | .assignName _ _ n => L n
  | .declare s => L s.line
  | .ended _ | .balance => True

/-- What a reader knows and tells stands on lines with a property. Declarations are looked at
with the tree. -/
structure Reader.LinesIn (L : Int → Prop) (s : Reader) : Prop where
  ahead : ∀ t ∈ s.tokens, L t.line
  final : L s.final.token.line
  prev : ∀ t ∈ s.prev, L t.line
  story : ∀ e ∈ s.story, e.symbol? = none → e.LineIn L

namespace Reader.LinesIn

theorem line (h : LinesIn L s) : L s.line := by
  cases hr : s.rest with
  | nil =>
    have hl : s.line = s.final.token.line := by simp [Reader.line, current, hr]
    rw [hl]
    exact h.final
  | cons r rs =>
    have hl : s.line = r.token.line := by simp [Reader.line, current, hr]
    rw [hl]
    exact h.ahead _ (by simp [tokens, hr])

theorem lastLine (h : LinesIn L s) : L s.lastLine := by
  cases hp : s.prev with
  | none =>
    have hl : s.lastLine = s.line := by rw [Reader.lastLine, hp, Option.elim_none]
    rw [hl]
    exact h.line
  | some t =>
    have hl : s.lastLine = t.line := by rw [Reader.lastLine, hp, Option.elim_some]
    rw [hl]
    exact h.prev t hp

theorem advance (h : LinesIn L s) (ht : s.here? = some t) : LinesIn L s.advance where
  ahead u hu := h.ahead u (by rw [tokens_of_here? ht]; exact List.mem_cons_of_mem t hu)
  final := by
    have hr : Reads Complaint s s.advance := .advance ⟨t, ht⟩
    rw [hr.final_eq]
    exact h.final
  prev := by
    rw [prev_advance ht]
    rintro u ⟨⟩
    exact h.ahead t (by rw [tokens_of_here? ht]; exact List.mem_cons_self)
  story := by
    rw [story_advance ht]
    exact h.story

theorem emit (h : LinesIn L s) (he : e.symbol? = none → e.LineIn L) : LinesIn L (s.emit e) where
  ahead := h.ahead
  final := h.final
  prev := h.prev
  story f hf := by
    rcases mem_story_emit.1 hf with rfl | hf
    · exact he
    · exact h.story f hf

theorem complaint (h : LinesIn L s) (he : Complaint s e) : e.LineIn L := by
  cases he with
  | here _ => exact h.line
  | last _ => exact h.lastLine

theorem literal {n : Nat} (h : LinesIn L s) (he : .literal l n ∈ s.trace.toList) : L n :=
  h.story _ (List.mem_append_left _ he) rfl

theorem named {n : Nat} (h : LinesIn L s) (hn : s.Named name n) : L n := by
  obtain ⟨t, ht, -, -, rfl⟩ := hn
  exact h.story _ (List.mem_append_left _ ht) rfl

theorem checking (h : LinesIn L s) (he : Checking s e) : e.LineIn L := by
  cases he with
  | complaint he => exact h.complaint he
  | literal hl => exact h.literal hl
  | use hn => exact h.named hn
  | assign hl _ => exact h.literal hl
  | assignName hn _ => exact h.named hn
  | balance => trivial

end Reader.LinesIn

theorem Reader.linesIn_ofScan (scan : Scan) : (ofScan scan).LinesIn scan.HasLine where
  ahead t ht := by
    rw [tokens_ofScan] at ht
    exact .inl ⟨t, (List.mem_filter.1 ht).1, rfl⟩
  final := .inr rfl
  prev := by simp [ofScan, start]
  story e he _ := by
    rw [story_ofScan] at he
    rcases List.mem_append.1 he with he | he
    · rcases isScan_of_mem_readEvents he with ⟨t, rfl⟩ | ⟨l, n, rfl⟩
      · exact .inl ⟨t, mem_readEvents_scanned.1 he, rfl⟩
      · obtain ⟨before, t, after, hts, -, -, rfl⟩ := mem_readEvents_literal.1 he
        exact .inl ⟨t, by simp [hts], rfl⟩
    · rw [List.mem_singleton.1 he]
      trivial

theorem line_of_declare (h : .declare s ∈ trace source) : (Scan.ofBytes source).HasLine s.line := by
  obtain ⟨ds, hds, hsymbols⟩ := exists_declarations source ⟨false, 0⟩
  have hmem : s ∈ (trace source).filterMap Event.symbol? := List.mem_filterMap.2 ⟨_, h, rfl⟩
  rw [hsymbols] at hmem
  obtain ⟨d, hd, rfl⟩ := List.mem_map.1 hmem
  have htoken : d.token ∈ (Scan.ofBytes source).tokens :=
    hds.inOrder.subset (List.mem_map_of_mem hd)
  refine .inl ⟨d.token, htoken, ?_⟩
  cases d <;> rfl

theorem lineIn_of_mem_trace (h : e ∈ trace source) : e.LineIn (Scan.ofBytes source).HasLine := by
  have hdeclared := (Reader.reads_declared (Reader.ofScan (Scan.ofBytes source))).invariant
    (Reader.linesIn_ofScan _) (fun _ _ ht hs => hs.advance ht) ?_
  · have hend := (Reader.reads_body (Reader.sound_ofScan source)).invariant hdeclared
      (fun _ _ ht hs => hs.advance ht) fun _ _ he hs => hs.emit fun _ => hs.checking he
    cases hs : e.symbol? with
    | none =>
      rw [← story_readerAtEnd] at h
      exact hend.story e h hs
    | some s =>
      obtain rfl : e = .declare s := by
        cases e <;> simp_all [Event.symbol?]
      exact line_of_declare h
  · intro s e he hs
    refine hs.emit fun hnone => ?_
    cases he with
    | complaint he => exact hs.complaint he
    | declare symbol => cases hnone

section Reports

variable {L : Int → Prop}

theorem Brackets.lines_meet {bs : Brackets} (h : ∀ f ∈ bs.frames, L f.line) {n : Nat} (hn : L n)
    (m : BracketMark) : ∀ f ∈ (bs.meet n m).1.frames, L f.line := by
  cases m with
  | opening b => exact List.forall_mem_cons.2 ⟨hn, h⟩
  | closing b =>
    unfold meet
    dsimp only
    split
    · exact h
    · rename_i hframes
      rw [hframes] at h
      exact (List.forall_mem_cons.1 h).2

theorem Brackets.lines_meetAll {bs : Brackets} (h : ∀ f ∈ bs.frames, L f.line) {n : Nat}
    (hn : L n) (ms : List BracketMark) : ∀ f ∈ (bs.meetAll n ms).1.frames, L f.line := by
  induction ms generalizing bs with
  | nil => exact h
  | cons m ms ih => exact ih (lines_meet h hn m)

namespace Run

theorem lines_step {r : Run} (h : ∀ f ∈ r.brackets.frames, L f.line) (he : e.LineIn L) :
    ∀ f ∈ (r.step e).brackets.frames, L f.line := by
  rw [step_eq]
  cases e with
  | scanned t => exact Brackets.lines_meetAll h he t.brackets
  | ended q => simp [bracketsAfter, Brackets.empty]
  | balance => simp [bracketsAfter, Brackets.empty]
  | _ => exact h

/-- An event reports on its own line, on that of an open bracket, or that a string has no end. -/
theorem line_of_mem_reports {r : Run} (h : ∀ f ∈ r.brackets.frames, L f.line) (he : e.LineIn L)
    (hd : d ∈ r.reports e) :
    L d.line ∨ ∃ n : Nat, e = .ended (some n) ∧ d = Cause.unterminatedString.onLine n := by
  have hunclosed (hd : d ∈ r.unclosedReports) : L d.line := by
    obtain ⟨f, hf, rfl⟩ := List.mem_map.1 hd
    obtain ⟨g, hg, rfl⟩ := List.mem_map.1 hf
    exact h g (List.mem_reverse.1 hg)
  have hfinding {f : Finding} {n : Int} (hn : L n) (hd : d ∈ f.diagnostics n) : L d.line := by
    obtain ⟨c, -, rfl⟩ := Finding.mem_diagnostics.1 hd
    exact hn
  cases e with
  | scanned t =>
    rcases List.mem_append.1 hd with hd | hd
    · obtain ⟨f, -, rfl⟩ := List.mem_map.1 hd
      exact .inl he
    · obtain ⟨c, -, rfl⟩ := List.mem_map.1 hd
      exact .inl he
  | ended q =>
    rcases List.mem_append.1 hd with hd | hd
    · obtain ⟨n, hq, rfl⟩ := List.mem_map.1 hd
      obtain rfl := Option.mem_toList.1 hq
      exact .inr ⟨n, rfl, rfl⟩
    · exact .inl (hunclosed hd)
  | balance => exact .inl (hunclosed hd)
  | fault c n =>
    obtain rfl := List.mem_singleton.1 hd
    exact .inl he
  | _ => exact .inl (hfinding he hd)

theorem line_of_mem_attempts {r : Run} (h : ∀ f ∈ r.brackets.frames, L f.line)
    (hes : ∀ e ∈ es, e.LineIn L) (hd : d ∈ r.attempts es) :
    L d.line ∨ ∃ n : Nat, .ended (some n) ∈ es ∧ d = Cause.unterminatedString.onLine n := by
  induction es generalizing r with
  | nil => cases hd
  | cons e es ih =>
    obtain ⟨he, hrest⟩ := List.forall_mem_cons.1 hes
    rcases List.mem_append.1 hd with hd | hd
    · rcases line_of_mem_reports h he hd with hline | ⟨n, rfl, rfl⟩
      · exact .inl hline
      · exact .inr ⟨n, List.mem_cons_self, rfl⟩
    · rcases ih (lines_step h he) hrest hd with hline | ⟨n, hn, rfl⟩
      · exact .inl hline
      · exact .inr ⟨n, List.mem_cons_of_mem e hn, rfl⟩

theorem line_of_mem_attempts_fresh (hes : ∀ e ∈ es, e.LineIn L) (hd : d ∈ fresh.attempts es) :
    L d.line ∨ ∃ n : Nat, .ended (some n) ∈ es ∧ d = Cause.unterminatedString.onLine n :=
  line_of_mem_attempts (fun _ hf => absurd hf List.not_mem_nil) hes hd

end Run

end Reports

theorem mem_attempts_of_mem_diagnostics {o : Options} (h : d ∈ (analyze source o).diagnostics) :
    d ∈ Run.fresh.attempts (trace source) := by
  rw [diagnostics_analyze_eq_take source o false] at h
  rw [← mem_diagnostics_analyze (o := ⟨false, 0⟩) (Int.le_refl 0)]
  split at h
  · exact List.mem_of_mem_take h
  · exact h

/-- The diagnostic is on a line of a token or of the end of the input, or says where a string
without an end was opened. -/
def Scan.Locates (scan : Scan) (d : Diagnostic) : Prop :=
  scan.HasLine d.line ∨
    ∃ n : Nat, scan.openQuote = some n ∧ d = Cause.unterminatedString.onLine n

theorem Scan.Locates.within (h : (ofBytes source).Locates d) :
    1 ≤ d.line ∧ d.line ≤ 1 + source.count 0x0A := by
  rcases h with h | ⟨n, hn, rfl⟩
  · exact h.within
  · have hline := openQuote_within hn
    simp only [Cause.onLine, Diagnostic.ofCode]
    omega

theorem locates_of_mem_analyze {o : Options} (h : d ∈ (analyze source o).diagnostics) :
    (Scan.ofBytes source).Locates d := by
  rcases Run.line_of_mem_attempts_fresh (fun _ => lineIn_of_mem_trace)
    (mem_attempts_of_mem_diagnostics h) with hline | ⟨n, hn, rfl⟩
  · exact .inl hline
  · exact .inr ⟨n, openQuote_of_ended hn, rfl⟩

theorem Scan.lineIn_of_mem_events {scan : Scan} (h : e ∈ scan.events) : e.LineIn scan.HasLine := by
  rcases List.mem_append.1 h with h | h
  · rcases isScan_of_mem_tokenEvents h with ⟨t, rfl⟩ | ⟨l, n, rfl⟩
    · exact .inl ⟨t, mem_tokenEvents_scanned.1 h, rfl⟩
    · obtain ⟨before, t, after, hts, -, -, rfl⟩ := mem_tokenEvents_literal.1 h
      exact .inl ⟨t, by simp [hts], rfl⟩
  · rw [List.mem_singleton.1 h]
    trivial

theorem locates_of_mem_tokenize (h : d ∈ (tokenize source).2) :
    (Scan.ofBytes source).Locates d := by
  rcases Run.line_of_mem_attempts_fresh (fun _ => Scan.lineIn_of_mem_events)
    (mem_list_replay_fresh.1 h) with hline | ⟨n, hn, rfl⟩
  · exact .inl hline
  · refine .inr ⟨n, ?_, rfl⟩
    rcases List.mem_append.1 hn with hn | hn
    · rcases isScan_of_mem_tokenEvents hn with ⟨t, ht⟩ | ⟨l, m, hl⟩
      · cases ht
      · cases hl
    · exact (Event.ended.inj (List.mem_singleton.1 hn)).symm

/-- Every diagnostic of a source, of its analysis and of its list of tokens, is on one of its lines.
In an analysis each but that of a string without an end is on the line of a token or of the end of
the input. -/
theorem diagnostics_on_lines_of_source (source : List UInt8) (o : Options) :
    (∀ d, d ∈ (analyze source o).diagnostics ∨ d ∈ (tokenize source).2 →
        1 ≤ d.line ∧ d.line ≤ 1 + source.count 0x0A) ∧
      ∀ d ∈ (analyze source o).diagnostics, d.code ≠ 117 →
        (∃ t ∈ (tokenize source).1, d.line = t.line) ∨
          d.line = (Scan.ofBytes source).final.line := by
  refine ⟨?_, ?_⟩
  · rintro d (hd | hd)
    · exact (locates_of_mem_analyze hd).within
    · exact (locates_of_mem_tokenize hd).within
  · intro d hd hcode
    rcases locates_of_mem_analyze hd with hline | ⟨n, -, rfl⟩
    · exact hline
    · exact absurd rfl hcode

end PascalCheck
