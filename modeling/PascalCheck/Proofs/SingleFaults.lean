import PascalCheck.Proofs.Reader.Locality
import PascalCheck.Proofs.Recovery.Body
import PascalCheck.Proofs.Recovery.Tokens

namespace PascalCheck
set_option autoImplicit true
open Grammar

/-- The tokens of a source are those in front of its body and those of the body, up to the final
point. -/
structure MainBody (source : List UInt8) (lead body : List Token) : Prop where
  tokens_eq : (Scan.ofBytes source).tokens = lead ++ body
  declared : ∃ ts, Heading (lead ++ body) ts ∧ Declarations NestedHeader ts body
  block : ∃ d, Grammar.Block body [d] ∧ d.is Code.dot = true

theorem clean_of_ok (h : (analyze source o).ok = true) : (readerAtEnd source).Clean := by
  rw [ok_analyze source o false, Report.ok, List.isEmpty_iff] at h
  apply (no_syntax_iff_clean (o := ⟨false, 0⟩) (Int.le_refl 0)).1
  intro d hd
  rw [h] at hd
  cases hd

theorem tokens_ofScan_of_ok (h : (analyze source o).ok = true) :
    (Reader.ofScan (Scan.ofBytes source)).tokens = (Scan.ofBytes source).tokens := by
  rw [Reader.tokens_ofScan, List.filter_eq_self]
  intro t ht
  simpa using kind_ne_unknown_of_ok h ht

theorem exists_mainBody_of_ok (h : (analyze source o).ok = true) :
    ∃ lead body, MainBody source lead body := by
  have hsound := Reader.sound_ofScan source
  have hprogram := Reader.program_sound hsound (clean_of_ok h)
  obtain ⟨hh, hdecls, hblock, hd⟩ := hprogram
  have hdeclared := Reader.declared_complete hh hdecls hblock hsound
  obtain ⟨lead, hlead⟩ := (Reader.reads_declared _).tokens_suffix
  rw [hdeclared.tokens_eq] at hlead
  rw [← hlead] at hh
  exact ⟨lead, _, (tokens_ofScan_of_ok h).symm.trans hlead.symm, ⟨_, hh, hdecls⟩, _, hblock, hd⟩

def readerAtBody (source : List UInt8) : Reader := (Reader.ofScan (Scan.ofBytes source)).declared

theorem sound_readerAtBody (source : List UInt8) : (readerAtBody source).Sound :=
  (Reader.reads_declared _).sound (Reader.sound_ofScan source)

theorem readerAtEnd_eq (source : List UInt8) :
    readerAtEnd source = (readerAtBody source).block.2.terminator := rfl

theorem Reader.symbols_eq_log (h : Reader.Sound s) :
    s.symbols = s.log.filterMap Event.symbol? := by
  have howner (e : Event) : (if e.isOwn = true then e.symbol? else none) = e.symbol? := by
    cases e <;> rfl
  have hnone : s.upcoming.filterMap Event.symbol? = [] := by
    rw [List.filterMap_eq_nil_iff]
    intro e he
    rw [← howner, h.plain e he]
    rfl
  rw [Reader.symbols, Reader.story, List.filterMap_append, hnone, List.append_nil, Reader.log,
    List.filterMap_filter]
  exact (List.filterMap_congr fun e _ => howner e).symm

theorem balance_not_mem_readerAtBody (source : List UInt8) :
    .balance ∉ (readerAtBody source).log := by
  intro h
  rw [Reader.mem_log_iff rfl] at h
  rcases (Reader.reads_declared _).mem_story (List.mem_append_left _ h) with he | ⟨u, hu⟩
  · rcases Reader.isScan_of_mem_start he with ⟨t, ht⟩ | ⟨l, n, hl⟩ | ⟨q, hq⟩
    · cases ht
    · cases hl
    · cases hq
  · cases hu with
    | complaint hu => cases hu

theorem symbols_trace (source : List UInt8) :
    (trace source).filterMap Event.symbol? =
      (readerAtBody source).log.filterMap Event.symbol? := by
  have hbody := (Reader.reads_body (Reader.sound_ofScan source)).symbols_eq fun _ _ h => h.symbol?
  rw [← Reader.symbols_eq_log (sound_readerAtBody source), ← story_readerAtEnd]
  exact hbody

theorem final_readerAtEnd (h : ∀ t ∈ (Scan.ofBytes source).tokens, t.kind ≠ .unknown) :
    (readerAtEnd source).final.events = [.ended (Scan.ofBytes source).openQuote] := by
  have hbody := (Reader.reads_body (Reader.sound_ofScan source)).final_eq
  have hstart := (Reader.reads_declared (Reader.ofScan (Scan.ofBytes source))).final_eq
  rw [readerAtEnd, hbody, hstart]
  exact Reader.events_final_ofScan h

/-- Compared to a source, another one has one fault, and no other event of its reader is new. -/
structure OneFault (source source' : List UInt8) (fault : Event) : Prop where
  mem : fault ∈ trace source'
  own : ∀ e ∈ trace source', e.isOwn = true → e = fault ∨ e = .balance ∨ e ∈ trace source
  symbols_eq : (trace source').filterMap Event.symbol? = (trace source).filterMap Event.symbol?
  closes : ∀ before after, trace source' = before ++ .balance :: after →
    after = [.ended (Scan.ofBytes source').openQuote]

/-- If one fault is new, it is the only diagnostic. -/
theorem OneFault.diagnostics_eq {c : Cause} {n : Nat} {o' : Options}
    (h : OneFault source source' (.fault c n)) (hok : (analyze source o).ok = true)
    (htokens : Run.fresh.attempts (readEvents false (Scan.ofBytes source').tokens ++
      [.ended (Scan.ofBytes source').openQuote]) = []) (ho' : o'.maxDiagnostics ≤ 0) :
    (analyze source' o').diagnostics = [c.onLine n] := by
  have hsymbols : (analyze source' o').symbols = (analyze source o).symbols := by
    rw [symbols_eq_firsts, symbols_eq_firsts, h.symbols_eq]
  have hdistinct := distinct_of_ok hok
  rw [← h.symbols_eq] at hdistinct
  have hnames : ∀ e ∈ trace source', e.isNameCheck = true →
      (SymbolTable.finding (.ofList (analyze source' o').symbols) e).causes = [] := by
    intro e he hname
    have hmem : e ∈ trace source := by
      have hown : e.isOwn = true := by cases e <;> first | rfl | cases hname
      rcases h.own e he hown with rfl | rfl | hmem
      · cases hname
      · cases hname
      · exact hmem
    rw [hsymbols]
    exact causes_finding_of_ok hok hmem hname
  have honly : ∀ d ∈ (analyze source' o').diagnostics, d = c.onLine n := by
    intro d hd
    obtain ⟨c', n', hmem, rfl⟩ := exists_fault_of_parts h.closes htokens o' hdistinct hnames
      ((mem_diagnostics_analyze ho').1 hd)
    rcases h.own _ hmem rfl with hfault | hbalance | hold
    · cases hfault
      rfl
    · cases hbalance
    · rw [← story_readerAtEnd] at hold
      exact absurd hold (clean_of_ok hok c' n')
  have hmem : c.onLine n ∈ (analyze source' o').diagnostics := by
    obtain ⟨before, after, hsplit⟩ := List.append_of_mem h.mem
    rw [mem_diagnostics_analyze ho', hsplit]
    exact Run.mem_attempts_of_mem_reports (List.mem_singleton_self _)
  have hnodup := nodup_diagnostics source' o'
  generalize (analyze source' o').diagnostics = ds at honly hmem hnodup
  match ds with
  | [] => cases hmem
  | [d] => rw [honly d List.mem_cons_self]
  | d :: d' :: ds =>
    have hsame : d = d' := (honly d (by simp)).trans (honly d' (by simp)).symm
    exact absurd hnodup (by simp [hsame])

theorem Grammar.Slip.exists_code (h : Slip e c back cause) :
    ∃ code ∈ Code.omissible, c.is code = true := by
  cases h with
  | semicolon hc _ _ _ => exact ⟨_, by decide, hc⟩
  | assign _ hc => exact ⟨_, by decide, hc⟩
  | closing hc _ => exact ⟨_, by decide, hc⟩
  | dot hc => exact ⟨_, by decide, hc⟩

theorem Grammar.Slip.unsigned (h : Slip e c back cause) (he : e.Coherent)
    (hback : ∀ t ∈ back, t.Coherent) :
    e.is Code.minus = false ∨ ∀ t ∈ back.head?, t.kind ≠ .number := by
  cases h with
  | @semicolon f back _ _ _ hf =>
    refine .inr ?_
    rintro t ht hk
    obtain rfl : f = t := by simpa using ht
    have hcoherent := hback f List.mem_cons_self
    rcases hf with hf | hf | hf
    · rw [hk] at hf
      cases hf
    · rw [hcoherent.is_eq_false_of_number hk (by decide) (by decide)] at hf
      cases hf
    · rw [hcoherent.is_eq_false_of_number hk (by decide) (by decide)] at hf
      cases hf
  | assign hk _ => exact .inl (he.is_eq_false_of_ident hk (by decide))
  | @closing d _ hd =>
    refine .inr ?_
    rintro t ht hk
    obtain rfl : d = t := by simpa using ht
    rw [(hback d List.mem_cons_self).is_eq_false_of_number hk (by decide) (by decide)] at hd
    cases hd
  | dot _ => exact .inr (by simp)

section Slips

variable {source : List UInt8} {lead front back : List Token} {e c : Token} {o : Options}
  (hok : (analyze source o).ok = true) (hbody : MainBody source lead (front ++ e :: c :: back))

include hbody

theorem MainBody.split : (Scan.ofBytes source).tokens = (lead ++ front) ++ e :: c :: back := by
  rw [hbody.tokens_eq, List.append_assoc]

theorem MainBody.coherent : ∀ t ∈ front ++ e :: c :: back, t.Coherent := by
  intro t ht
  have hmem : t ∈ (Scan.ofBytes source).tokens := by
    rw [hbody.tokens_eq]
    exact List.mem_append_right lead ht
  exact Scan.coherent_of_mem hmem

include hok

theorem MainBody.legal : ∀ t ∈ (lead ++ front) ++ e :: c :: back, t.kind ≠ .unknown := by
  intro t ht
  rw [← hbody.split] at ht
  exact kind_ne_unknown_of_ok hok ht

theorem MainBody.tokens_readerAtBody :
    (readerAtBody source).tokens = front ++ e :: c :: back := by
  obtain ⟨ts, hh, hdecls⟩ := hbody.declared
  obtain ⟨d, hblock, -⟩ := hbody.block
  rw [← hbody.tokens_eq, ← tokens_ofScan_of_ok hok] at hh
  exact (Reader.declared_complete hh hdecls hblock (Reader.sound_ofScan source)).tokens_eq

variable {cause : Cause} (hslip : Slip e c back cause)

omit hok
include hslip

theorem scan_withoutToken :
    Scan.ofBytes (withoutToken source ((lead ++ front).length + 1)) =
      { Scan.ofBytes source with tokens := (lead ++ front) ++ e :: back } := by
  obtain ⟨code, hcode, hc⟩ := hslip.exists_code
  have htokens : (Scan.ofBytes source).tokens = (lead ++ front ++ [e]) ++ c :: back := by
    rw [hbody.split, List.append_assoc (lead ++ front), List.singleton_append]
  have hlength : (lead ++ front ++ [e]).length = (lead ++ front).length + 1 :=
    List.length_append
  have hat : (Scan.ofBytes source).tokens[(lead ++ front).length + 1]? = some c := by
    rw [htokens, ← hlength]
    simp
  rw [Scan.ofBytes_withoutToken source (Scan.narrowAt_of_omissible hat hc hcode), htokens,
    ← hlength, List.eraseIdx_append_of_length_le (Nat.le_refl _)]
  simp

include hok

theorem readerAtBody_withoutToken :
    ∃ k tail, readerAtBody (withoutToken source ((lead ++ front).length + 1)) =
        (readerAtBody source).graft k tail ∧
      ((readerAtBody source).graft k tail).tokens = front ++ e :: back := by
  have hlegal := hbody.legal hok
  simp only [List.forall_mem_append, List.forall_mem_cons] at hlegal
  obtain ⟨⟨hlead, hfront⟩, he, hc, hback⟩ := hlegal
  have hbefore : ∀ t ∈ lead ++ front ++ [e], t.kind ≠ .unknown := by
    simp only [List.forall_mem_append, List.forall_mem_singleton]
    exact ⟨⟨hlead, hfront⟩, he⟩
  have hafter : ∀ t ∈ c :: back, t.kind ≠ .unknown := List.forall_mem_cons.2 ⟨hc, hback⟩
  obtain ⟨tail, hgraft, htail⟩ :=
    Reader.exists_graft (Scan.ofBytes source) hbefore hafter hback hbody.split
  have htokens : (readerAtBody source).tokens = (front ++ [e]) ++ c :: back := by
    rw [hbody.tokens_readerAtBody hok, List.append_assoc, List.singleton_append]
  refine ⟨(c :: back).length, tail, ?_, ?_⟩
  · rw [readerAtBody, scan_withoutToken hbody hslip, hgraft]
    apply Reader.declared_graft
    rw [← readerAtBody, Reader.remaining_of_tokens htokens, List.length_append,
      List.length_singleton]
    omega
  · rw [Reader.tokens_graft htokens, htail, List.append_assoc, List.singleton_append]

theorem oneFault_withoutToken :
    OneFault source (withoutToken source ((lead ++ front).length + 1))
      (.fault cause e.line) := by
  obtain ⟨k, tail, hgraft, htokens'⟩ := readerAtBody_withoutToken hok hbody hslip
  generalize hsource : withoutToken source ((lead ++ front).length + 1) = source' at hgraft ⊢
  rw [← hgraft] at htokens'
  obtain ⟨d, hblock, hd⟩ := hbody.block
  obtain ⟨es, es', hread, hread', hes, hfault, hes'⟩ :=
    Reader.body_recovers hblock hd hbody.coherent hslip
  have hend := hread _ (sound_readerAtBody source) (hbody.tokens_readerAtBody hok)
  have hend' := hread' _ (sound_readerAtBody source') htokens'
  rw [← readerAtEnd_eq] at hend hend'
  have hlog : (readerAtBody source').log = (readerAtBody source).log := by
    rw [hgraft]
    rfl
  have hlegal : ∀ t ∈ (Scan.ofBytes source').tokens, t.kind ≠ .unknown := by
    intro t ht
    rw [← hsource, scan_withoutToken hbody hslip] at ht
    apply hbody.legal hok
    simp only [List.mem_append, List.mem_cons] at ht ⊢
    exact ht.imp_right (Or.imp_right .inr)
  constructor
  · exact (Reader.mem_log_iff rfl).1 (hend'.logged hfault)
  · intro x hx hown
    have hold (hmem : x ∈ (readerAtEnd source).log) : x ∈ trace source :=
      (Reader.mem_log_iff hown).1 hmem
    rcases hend'.mem_log ((Reader.mem_log_iff hown).2 hx) with hmem | hmem | rfl
    · rw [hlog] at hmem
      exact .inr (.inr (hold (hend.kept hmem)))
    · exact (hes' x hmem).imp id fun hmem => .inr (hold (hend.logged hmem))
    · exact .inr (.inl rfl)
  · rw [symbols_trace, symbols_trace, hlog]
  · have hnone : .balance ∉ (readerAtBody source').log ++ es' := by
      rw [List.mem_append, not_or]
      refine ⟨balance_not_mem_readerAtBody source', ?_⟩
      intro hmem
      rcases hes' _ hmem with hmem | hmem
      · cases hmem
      · cases hes _ hmem
    intro before after htrace
    rw [hend'.closes hnone before after htrace, final_readerAtEnd hlegal]

theorem attempts_withoutToken :
    Run.fresh.attempts
      (readEvents false (Scan.ofBytes (withoutToken source ((lead ++ front).length + 1))).tokens ++
        [.ended (Scan.ofBytes (withoutToken source ((lead ++ front).length + 1))).openQuote]) =
      [] := by
  obtain ⟨code, hcode, hc⟩ := hslip.exists_code
  have hmem : c ∈ (Scan.ofBytes source).tokens := by simp [hbody.split]
  have hcoherent := Scan.coherent_of_mem hmem
  have hcodes : ∀ code ∈ Code.omissible, Code.integerLiteral ≠ code ∧ Code.realLiteral ≠ code ∧
      code ≠ Code.minus := by
    decide
  obtain ⟨hinteger, hreal, hminus⟩ := hcodes code hcode
  have hcoherents := hbody.coherent
  simp only [List.forall_mem_append, List.forall_mem_cons] at hcoherents
  obtain ⟨-, he, -, hback⟩ := hcoherents
  have htokens := attempts_readEvents_of_ok hok
  rw [hbody.split] at htokens
  rw [scan_withoutToken hbody hslip]
  exact attempts_readEvents_without (hbody.legal hok) (hcoherent.kind_ne_number hc hinteger hreal)
    (Token.is_eq_false hc hminus) (Scan.brackets_of_omissible hmem hc hcode)
    (hslip.unsigned he hback) htokens

end Slips

/-- An accepted source has a body. Where a semicolon between two of its statements, the sign of one
of its assignments, its end or the final point is left out, the report has one diagnostic: that it
is missing, on the line of the token before it. -/
theorem single_fault_reported_alone (source : List UInt8) (o : Options)
    (h : (analyze source o).ok = true) :
    (∃ lead body, MainBody source lead body) ∧
      ∀ lead front e c back cause (o' : Options),
        MainBody source lead (front ++ e :: c :: back) → Slip e c back cause →
        o'.maxDiagnostics ≤ 0 →
        (analyze (withoutToken source ((lead ++ front).length + 1)) o').diagnostics =
          [cause.onLine e.line] := by
  refine ⟨exists_mainBody_of_ok h, ?_⟩
  intro lead front e c back cause o' hbody hslip ho'
  exact (oneFault_withoutToken h hbody hslip).diagnostics_eq h
    (attempts_withoutToken h hbody hslip) ho'

/-- A source with two statements in its body. -/
def shortSource : List UInt8 :=
  "var x: integer;\nbegin\n  x := 1;\n  writeln(x)\nend.".toUTF8.toList

def shortLead : List Token := [
    ⟨.keyword, "var", Code.varWord, ⟨1, 1⟩⟩, ⟨.ident, "x", Code.ident, ⟨1, 5⟩⟩,
    ⟨.colon, ":", Code.colon, ⟨1, 6⟩⟩, ⟨.keyword, "integer", Code.integerWord, ⟨1, 8⟩⟩,
    ⟨.operator, ";", Code.semicolon, ⟨1, 15⟩⟩]

def shortBody : List Token := [
    ⟨.keyword, "begin", Code.beginWord, ⟨2, 1⟩⟩, ⟨.ident, "x", Code.ident, ⟨3, 3⟩⟩,
    ⟨.operator, ":=", Code.assign, ⟨3, 5⟩⟩, ⟨.number, "1", Code.integerLiteral, ⟨3, 8⟩⟩,
    ⟨.operator, ";", Code.semicolon, ⟨3, 9⟩⟩, ⟨.keyword, "writeln", Code.writelnWord, ⟨4, 3⟩⟩,
    ⟨.operator, "(", Code.leftParen, ⟨4, 10⟩⟩, ⟨.ident, "x", Code.ident, ⟨4, 11⟩⟩,
    ⟨.operator, ")", Code.rightParen, ⟨4, 12⟩⟩, ⟨.keyword, "end", Code.endWord, ⟨5, 1⟩⟩,
    ⟨.operator, ".", Code.dot, ⟨5, 4⟩⟩]

theorem mainBody_short : MainBody shortSource shortLead shortBody := by
  refine ⟨by decide +kernel, ⟨shortLead ++ shortBody, .none, ?_⟩, shortBody[10], ?_, rfl⟩
  · exact .vars rfl (.cons (.last rfl) (.mk rfl rfl (.inl rfl)) rfl .nil) .nil
  · exact .mk rfl (.cons (.assign rfl rfl (.number rfl)) rfl
      (.last (.output rfl (.arguments rfl (.last (.name rfl)) rfl)))) rfl

theorem single_fault_reported_alone_short :
    (analyze shortSource ⟨true, 1⟩).ok = true ∧ MainBody shortSource shortLead shortBody ∧
      (analyze (withoutToken shortSource 9) ⟨false, 0⟩).diagnostics =
        [Cause.missingSemicolon.onLine 3] ∧
      (analyze (withoutToken shortSource 7) ⟨false, 0⟩).diagnostics =
        [Cause.missingAssign.onLine 3] ∧
      (analyze (withoutToken shortSource 14) ⟨false, 0⟩).diagnostics =
        [Cause.missingEnd.onLine 4] ∧
      (analyze (withoutToken shortSource 15) ⟨false, 0⟩).diagnostics =
        [Cause.missingDot.onLine 5] := by
  have hok : (analyze shortSource ⟨true, 1⟩).ok = true := by decide +kernel
  have hslips := (single_fault_reported_alone shortSource ⟨true, 1⟩ hok).2 shortLead
  have h := mainBody_short
  refine ⟨hok, h, ?_, ?_, ?_, ?_⟩
  · exact hslips (shortBody.take 3) shortBody[3] shortBody[4] (shortBody.drop 5) _ ⟨false, 0⟩ h
      (.semicolon rfl rfl rfl (.inr (.inl rfl))) (Int.le_refl 0)
  · exact hslips (shortBody.take 1) shortBody[1] shortBody[2] (shortBody.drop 3) _ ⟨false, 0⟩ h
      (.assign rfl rfl) (Int.le_refl 0)
  · exact hslips (shortBody.take 8) shortBody[8] shortBody[9] (shortBody.drop 10) _ ⟨false, 0⟩ h
      (.closing rfl rfl) (Int.le_refl 0)
  · exact hslips (shortBody.take 9) shortBody[9] shortBody[10] [] _ ⟨false, 0⟩ h
      (.dot rfl) (Int.le_refl 0)

end PascalCheck
