import PascalCheck.Proofs.Grammar.Statements

namespace PascalCheck
set_option autoImplicit true

def Code.stops : List Int :=
  [semicolon, endWord, beginWord, varWord, functionWord, procedureWord, dot]

/-- The codes of tokens that stand around expressions and arguments, never within them. -/
def Code.boundaries : List Int := assign :: stops

namespace Grammar

def Interior (t : Token) : Prop := ∀ code ∈ Code.boundaries, t.is code = false

theorem interior_of_is (h : t.is code = true) (hcode : code ∉ Code.boundaries) : Interior t := by
  intro code' hmem
  apply Token.is_eq_false h
  rintro rfl
  exact hcode hmem

theorem interior_of_ident (ht : Token.Coherent t) (hk : t.kind = .ident) : Interior t := by
  intro code hmem
  apply ht.is_eq_false_of_ident hk
  rintro rfl
  exact absurd hmem (by decide)

theorem interior_of_number (ht : Token.Coherent t) (hk : t.kind = .number) : Interior t := by
  intro code hmem
  apply ht.is_eq_false_of_number hk
  · rintro rfl
    exact absurd hmem (by decide)
  · rintro rfl
    exact absurd hmem (by decide)

theorem Expression.interior (h : Expression ts us) (hts : ∀ t ∈ ts, t.Coherent) :
    ∃ xs, ts = xs ++ us ∧ ∀ t ∈ xs, Interior t := by
  induction h with
  | @signed sign t ts hsign hk =>
    have hs : Interior sign := by
      rcases hsign with hsign | hsign
      · exact interior_of_is hsign (by decide)
      · exact interior_of_is hsign (by decide)
    have ht := interior_of_number (hts t (by simp)) hk
    exact ⟨[sign, t], rfl, by simp [hs, ht]⟩
  | @number t ts hk =>
    have ht := interior_of_number (hts t (by simp)) hk
    exact ⟨[t], rfl, by simp [ht]⟩
  | @name t ts hk =>
    have ht := interior_of_ident (hts t (by simp)) hk
    exact ⟨[t], rfl, by simp [ht]⟩
  | @paren ts r us l hl _ hr ih =>
    obtain ⟨xs, rfl, hxs⟩ := ih fun t ht => hts t (List.mem_cons_of_mem l ht)
    have hleft : Interior l := interior_of_is hl (by decide)
    have hright : Interior r := interior_of_is hr (by decide)
    refine ⟨l :: (xs ++ [r]), by simp, ?_⟩
    simpa [hleft, hright, or_imp, forall_and] using hxs

theorem Arguments.interior (h : Arguments ts us) (hts : ∀ t ∈ ts, t.Coherent) :
    ∃ xs, ts = xs ++ us ∧ ∀ t ∈ xs, Interior t := by
  induction h with
  | last he => exact he.interior hts
  | @cons _ c _ _ he hc _ ih =>
    obtain ⟨xs, rfl, hxs⟩ := he.interior hts
    obtain ⟨ys, rfl, hys⟩ := ih fun t ht => hts t (by simp [ht])
    have hcomma : Interior c := interior_of_is hc (by decide)
    refine ⟨xs ++ c :: ys, by simp, ?_⟩
    simpa [hcomma, or_imp, forall_and] using ⟨hxs, hys⟩

theorem Output.interior (h : Output ts us) (hts : ∀ t ∈ ts, t.Coherent) :
    ∃ xs, ts = xs ++ us ∧ ∀ t ∈ xs, Interior t := by
  cases h with
  | none => exact ⟨[], rfl, by simp⟩
  | @empty l r ts hl hr =>
    have hleft : Interior l := interior_of_is hl (by decide)
    have hright : Interior r := interior_of_is hr (by decide)
    exact ⟨[l, r], rfl, by simp [hleft, hright]⟩
  | @arguments ts r _ l hl hargs hr =>
    obtain ⟨xs, rfl, hxs⟩ := hargs.interior fun t ht => hts t (List.mem_cons_of_mem l ht)
    have hleft : Interior l := interior_of_is hl (by decide)
    have hright : Interior r := interior_of_is hr (by decide)
    refine ⟨l :: (xs ++ [r]), by simp, ?_⟩
    simpa [hleft, hright, or_imp, forall_and] using hxs

/-- The token is the first of a statement that is not empty. -/
def StartsStatement (t : Token) : Prop :=
  t.kind = .ident ∨ t.is Code.writelnWord = true ∨ t.is Code.beginWord = true

theorem StartsStatement.is_eq_false (h : StartsStatement t) (ht : t.Coherent)
    (hcode : code ∉ [Code.ident, Code.writelnWord, Code.beginWord]) : t.is code = false := by
  simp only [List.mem_cons, List.not_mem_nil, or_false, not_or] at hcode
  obtain ⟨hident, hwriteln, hbegin⟩ := hcode
  rcases h with hk | hw | hb
  · exact ht.is_eq_false_of_ident hk (Ne.symm hident)
  · exact Token.is_eq_false hw (Ne.symm hwriteln)
  · exact Token.is_eq_false hb (Ne.symm hbegin)

def Separates (c : Token) : Prop := c.is Code.semicolon = true ∨ c.is Code.assign = true

theorem Separates.is_eq_false (h : Separates c) (hsemi : Code.semicolon ≠ code)
    (hassign : Code.assign ≠ code) : c.is code = false := by
  rcases h with hc | hc
  · exact Token.is_eq_false hc hsemi
  · exact Token.is_eq_false hc hassign

/-- Between `e` and the tokens behind it stands `c`, and its absence has the cause: it is the
semicolon between two statements, the sign of an assignment, the end of the body or the final
point. -/
inductive Slip (e c : Token) : List Token → Cause → Prop
  | semicolon : c.is Code.semicolon = true → e.is Code.semicolon = false →
      e.is Code.beginWord = false → StartsStatement f → Slip e c (f :: back) .missingSemicolon
  | assign : e.kind = .ident → c.is Code.assign = true → Slip e c back .missingAssign
  | closing : c.is Code.endWord = true → d.is Code.dot = true → Slip e c [d] .missingEnd
  | dot : c.is Code.dot = true → Slip e c [] .missingDot

theorem Slip.of_semicolon (h : Slip e c back cause) (hc : c.is Code.semicolon = true) :
    e.is Code.semicolon = false ∧ e.is Code.beginWord = false ∧ cause = .missingSemicolon ∧
      ∃ f ts, back = f :: ts ∧ StartsStatement f := by
  have hne {code : Int} (hc' : c.is code = true) (hcode : code ≠ Code.semicolon) : False := by
    rw [Token.is_eq_false hc' hcode] at hc
    cases hc
  cases h with
  | semicolon _ he hb hf => exact ⟨he, hb, rfl, _, _, rfl, hf⟩
  | assign _ hc' => exact (hne hc' (by decide)).elim
  | closing hc' _ => exact (hne hc' (by decide)).elim
  | dot hc' => exact (hne hc' (by decide)).elim

theorem Slip.of_assign (h : Slip e c back cause) (hc : c.is Code.assign = true) :
    e.kind = .ident ∧ cause = .missingAssign := by
  have hne {code : Int} (hc' : c.is code = true) (hcode : code ≠ Code.assign) : False := by
    rw [Token.is_eq_false hc' hcode] at hc
    cases hc
  cases h with
  | semicolon hc' _ _ _ => exact (hne hc' (by decide)).elim
  | assign hk _ => exact ⟨hk, rfl⟩
  | closing hc' _ => exact (hne hc' (by decide)).elim
  | dot hc' => exact (hne hc' (by decide)).elim

theorem Slip.before (h : Slip e c back cause) (he : e.Coherent)
    (hin : Separates c) :
    e.is Code.semicolon = false ∧ e.is Code.beginWord = false := by
  rcases hin with hc | hc
  · obtain ⟨hsemi, hbegin, -⟩ := h.of_semicolon hc
    exact ⟨hsemi, hbegin⟩
  · obtain ⟨hk, -⟩ := h.of_assign hc
    exact ⟨he.is_eq_false_of_ident hk (by decide), he.is_eq_false_of_ident hk (by decide)⟩

end Grammar

namespace Reader
open Grammar

def isPassed (t : Token) : Bool := !(t.is Code.semicolon || isRestart t || t.is Code.dot)

theorem synchronize_eq (s : Reader) :
    s.synchronize = (s.skipWhile isPassed).accept Code.semicolon := rfl

theorem isPassed_iff : isPassed t = true ↔ ∀ code ∈ Code.stops, t.is code = false := by
  simp [isPassed, isRestart, Code.stops, and_assoc]

theorem isPassed_of_is (h : t.is code = true) (hcode : code ∉ Code.stops) : isPassed t = true := by
  rw [isPassed_iff]
  intro code' hmem
  apply Token.is_eq_false h
  rintro rfl
  exact hcode hmem

theorem isPassed_of_interior (h : Interior t) : isPassed t = true :=
  isPassed_iff.2 fun code hcode => h code (List.mem_cons_of_mem _ hcode)

theorem took_skipWhile {p : Token → Bool} {s : Reader} (hxs : ∀ t ∈ xs, p t = true)
    (hv : p v = false) (hsound : s.Sound) (hs : s.tokens = xs ++ v :: vs) :
    Took s xs [] (s.skipWhile p) := by
  induction xs generalizing s with
  | nil =>
    rw [skipWhile_of_neg hs hv]
    exact .refl hsound
  | cons x xs ih =>
    have ha := Took.advance hsound hs
    rw [skipWhile_of_pos hs (hxs x List.mem_cons_self)]
    exact ha.trans (ih (fun t ht => hxs t (List.mem_cons_of_mem x ht)) ha.sound (ha.rest_eq hs))

/-- After a statement is skipped, reading goes on as after a statement that was read. -/
theorem exists_synchronize {s : Reader} (hxs : ∀ t ∈ xs, isPassed t = true) (hsound : s.Sound)
    (hs : s.tokens = xs ++ vs) (hvs : Ended vs) :
    ∃ s₁, Took s xs [] s₁ ∧ s.synchronize = s₁.endStatement := by
  obtain ⟨e, us, rfl, he⟩ := hvs
  have hstop : isPassed e = false := by
    rcases he with he | he
    · simp [isPassed, he]
    · rcases Bool.or_eq_true_iff.1 he with he | he <;> simp [isPassed, isRestart, he]
  have hp := took_skipWhile hxs hstop hsound hs
  refine ⟨_, hp, ?_⟩
  rw [synchronize_eq, accept, sees_of_tokens (hp.rest_eq hs)]
  rcases he with he | he
  · rw [if_pos he, endStatement_semicolon (hp.rest_eq hs) he]
  · have hc : e.is Code.semicolon = false :=
      is_eq_false_of_isBlockEnd he (by decide) (by decide)
    rw [hc, if_neg (by decide), endStatement_end (hp.rest_eq hs) he]

theorem synchronize_begin {s : Reader} (hs : s.tokens = b :: ts) (hb : b.is Code.beginWord = true) :
    s.synchronize = s := by
  have hstop : isPassed b = false := by simp [isPassed, isRestart, hb]
  have hc : b.is Code.semicolon = false := Token.is_eq_false hb (by decide)
  rw [synchronize_eq, skipWhile_of_neg hs hstop, accept, sees_of_tokens hs, hc, if_neg (by decide)]

theorem readsStatement_unassigned (hk : t.kind = .ident) (hxs : ∀ x ∈ xs, Interior x) :
    ReadsStatement Ended (t :: xs) [.fault .missingAssign t.line] := by
  intro s vs hsound hs hvs
  have hcoherent := hsound.coherent_of_tokens hs
  have hp := Took.advance hsound hs
  have hs' : s.advance.tokens = xs ++ vs := hp.rest_eq hs
  have hassign : s.advance.sees Code.assign = false := by
    apply sees_eq_false
    intro u hu
    rw [hs'] at hu
    cases xs with
    | nil =>
      obtain ⟨e, us, rfl, he⟩ := hvs
      obtain rfl : e = u := by simpa using hu
      rcases he with he | he
      · exact Token.is_eq_false he (by decide)
      · exact is_eq_false_of_isBlockEnd he (by decide) (by decide)
    | cons x xs =>
      obtain rfl : x = u := by simpa using hu
      exact hxs x List.mem_cons_self _ (by decide)
  have hfail : (assignment ⟨t, t.lexeme⟩ s.advance).2 =
      (s.advance.report .missingAssign t.line).synchronize := by
    unfold assignment
    split
    · rfl
    · rename_i u hu
      have hu' : u.is Code.assign = false := by simpa [sees, hu] using hassign
      rw [if_neg (by simp [hu'])]
  have he : Took s.advance [] [.fault .missingAssign t.line]
      (s.advance.report .missingAssign t.line) := .emit hp.sound rfl
  obtain ⟨s₁, hskip, hend⟩ :=
    exists_synchronize (fun x hx => isPassed_of_interior (hxs x hx)) he.sound hs' hvs
  refine ⟨s₁, hp.trans (he.trans hskip), ?_⟩
  refine statements_of_simple hs (hcoherent.is_eq_false_of_ident hk (by decide))
    (hcoherent.is_eq_false_of_ident hk (by decide))
    (hcoherent.is_eq_false_of_ident hk (by decide)) ?_
  rw [simpleStatement, hcoherent.is_eq_false_of_ident hk (by decide), if_neg (by decide),
    if_pos hk, hfail, hend]

/-- The tokens are read from where skipping ends, in front of the end of a block. -/
def Resumes (xs : List Token) (es : List Event) : Prop :=
  ∀ s vs, Sound s → s.tokens = xs ++ vs → BeforeEnd vs →
    Took s xs es (statements s.synchronize).2

theorem ReadsStatements.resumes (h : ReadsStatements (b :: xs) es)
    (hb : b.is Code.beginWord = true) : Resumes (b :: xs) es := by
  intro s vs hsound hs hvs
  rw [synchronize_begin hs hb]
  exact h s vs hsound hs hvs

theorem resumes_last (hxs : ∀ t ∈ xs, isPassed t = true) : Resumes xs [] := by
  intro s vs hsound hs hvs
  obtain ⟨s₁, hskip, hend⟩ := exists_synchronize hxs hsound hs hvs.ended
  obtain ⟨e, us, rfl, he⟩ := hvs
  have hs₁ := hskip.rest_eq hs
  rw [hend, endStatement_end hs₁ he, statements_end hs₁ he]
  exact hskip

theorem ReadsStatements.resumes_cons (h : ReadsStatements ys fs)
    (hxs : ∀ t ∈ xs, isPassed t = true) (hc : c.is Code.semicolon = true) :
    Resumes (xs ++ c :: ys) fs := by
  intro s vs hsound hs hvs
  have hs' : s.tokens = xs ++ c :: (ys ++ vs) := by simpa using hs
  obtain ⟨s₁, hskip, hend⟩ := exists_synchronize hxs hsound hs' (ended_cons hc)
  have ha := Took.advance hskip.sound (hskip.rest_eq hs')
  rw [hend, endStatement_semicolon (hskip.rest_eq hs') hc]
  exact hskip.trans (ha.trans (h _ vs ha.sound (ha.rest_eq (hskip.rest_eq hs')) hvs))

theorem statement_passed (h : Statement (f :: ts) us) (hts : ∀ t ∈ f :: ts, t.Coherent)
    (hf : f.is Code.beginWord = false) :
    ∃ xs, ts = xs ++ us ∧ ∀ t ∈ f :: xs, isPassed t = true := by
  cases h with
  | @assign ts _ _ a hk ha he =>
    obtain ⟨xs, rfl, hxs⟩ := he.interior fun t ht => hts t (by simp [ht])
    have htarget := isPassed_of_interior (interior_of_ident (hts f List.mem_cons_self) hk)
    have hassign : isPassed a = true := isPassed_of_is ha (by decide)
    refine ⟨a :: xs, rfl, ?_⟩
    rw [List.forall_mem_cons, List.forall_mem_cons]
    exact ⟨htarget, hassign, fun t ht => isPassed_of_interior (hxs t ht)⟩
  | output hw ho =>
    obtain ⟨xs, rfl, hxs⟩ := ho.interior fun t ht => hts t (by simp [ht])
    refine ⟨xs, rfl, ?_⟩
    rw [List.forall_mem_cons]
    exact ⟨isPassed_of_is hw (by decide), fun t ht => isPassed_of_interior (hxs t ht)⟩
  | block hb _ _ =>
    rw [hb] at hf
    cases hf

theorem not_beforeEnd (hf : StartsStatement f) (ht : f.Coherent) :
    ¬ BeforeEnd (f :: us) := by
  rintro ⟨e, vs, hus, he⟩
  obtain ⟨rfl, -⟩ := List.cons.inj hus
  have hend : f.is Code.endWord = false := hf.is_eq_false ht (by decide)
  have hdot : f.is Code.dot = false := hf.is_eq_false ht (by decide)
  simp [isBlockEnd, hend, hdot] at he

/-- Where a statement starts, the statements are read, and are read on after a report with the same
checks or fewer. -/
theorem statements_resume (h : Statements (f :: ts) us) (hts : ∀ t ∈ f :: ts, t.Coherent)
    (hus : BeforeEnd us) (hf : StartsStatement f) :
    ∃ ys fs fs', ts = ys ++ us ∧ ReadsStatements (f :: ys) fs ∧ Resumes (f :: ys) fs' ∧
      (∀ x ∈ fs, x.isNameCheck = true) ∧ fs' ⊆ fs := by
  have hcoherent := hts f List.mem_cons_self
  cases hb : f.is Code.beginWord with
  | true =>
    -- A block is where skipping ends, so nothing is passed over.
    obtain ⟨xs, fs, hsplit, hfs, hread⟩ := statements_complete h
    cases xs with
    | nil =>
      obtain rfl : f :: ts = us := hsplit
      exact absurd hus (not_beforeEnd hf hcoherent)
    | cons x ys =>
      obtain ⟨rfl, rfl⟩ := List.cons.inj hsplit
      exact ⟨ys, fs, fs, rfl, hread, hread.resumes hb, hfs, List.Subset.refl fs⟩
  | false =>
    cases h with
    | nil => exact absurd hus (not_beforeEnd hf hcoherent)
    | empty hc _ =>
      rw [hf.is_eq_false hcoherent (by decide)] at hc
      cases hc
    | last hst =>
      obtain ⟨xs, es, hsplit, hes, hread⟩ := statement_complete hst
      obtain ⟨ys, rfl, hys⟩ := statement_passed hst hts hb
      obtain rfl : f :: ys = xs := List.append_cancel_right hsplit
      exact ⟨ys, es, [], rfl, hread.ended.last, resumes_last hys, hes,
        List.nil_subset es⟩
    | @cons _ c _ _ hst hc hrest =>
      obtain ⟨xs, es, hsplit, hes, hread⟩ := statement_complete hst
      obtain ⟨ys, rfl, hys⟩ := statement_passed hst hts hb
      obtain rfl : f :: ys = xs := List.append_cancel_right hsplit
      obtain ⟨zs, fs, rfl, hfs, hread'⟩ := statements_complete hrest
      refine ⟨ys ++ c :: zs, es ++ fs, fs, by simp,
        hread.ended.cons hc hread', hread'.resumes_cons hys hc, ?_,
        List.subset_append_right es fs⟩
      intro x hx
      exact (List.mem_append.1 hx).elim (hes x) (hfs x)

theorem endStatement_missing {s : Reader} (hs : s.tokens = f :: ts) (hf : StartsStatement f)
    (hsound : s.Sound) :
    s.endStatement = (s.report .missingSemicolon s.lastLine).synchronize := by
  have hcoherent := hsound.coherent_of_tokens hs
  have hne : s.atEnd = false := by
    rw [Bool.eq_false_iff, ne_eq, atEnd_iff]
    simp [hs]
  have hsemi : f.is Code.semicolon = false := hf.is_eq_false hcoherent (by decide)
  have hend : f.is Code.endWord = false := hf.is_eq_false hcoherent (by decide)
  have hdot : f.is Code.dot = false := hf.is_eq_false hcoherent (by decide)
  simp [endStatement, sees_of_tokens hs, hsemi, hend, hdot, hne]

theorem ReadsStatement.unterminated (h : ReadsStatement Unextended (front ++ [e]) es)
    (hf : StartsStatement f) (k : Resumes (f :: ys) fs) :
    ReadsStatements (front ++ e :: f :: ys) (es ++ .fault .missingSemicolon e.line :: fs) := by
  intro s vs hsound hs hvs
  have hs' : s.tokens = (front ++ [e]) ++ (f :: ys ++ vs) := by simpa using hs
  have hcoherent : f.Coherent := hsound.coherent f (by simp [hs])
  have hunextended : Unextended (f :: ys ++ vs) := by
    intro t ht
    obtain rfl : f = t := by simpa using ht
    exact hf.is_eq_false hcoherent (by decide)
  obtain ⟨s₁, hp, hx⟩ := h s _ hsound hs' hunextended
  have hs₁ := hp.rest_eq hs'
  have he : Took s₁ [] [.fault .missingSemicolon e.line]
      (s₁.report .missingSemicolon e.line) := .emit hp.sound rfl
  have hrest := k _ vs he.sound hs₁ hvs
  rw [hx, endStatement_missing hs₁ hf hp.sound, hp.lastLine_eq]
  have hall := hp.trans (he.trans hrest)
  simpa using hall

/-- The tokens are read, and others in their place are read with one fault and without an event
that is new otherwise. -/
def Recovers (Reads : List Token → List Event → Prop) (xs xs' : List Token) (fault : Event) :
    Prop :=
  ∃ es es', Reads xs es ∧ Reads xs' es' ∧ (∀ x ∈ es, x.isNameCheck = true) ∧ fault ∈ es' ∧
    ∀ x ∈ es', x = fault ∨ x ∈ es

namespace Recovers

theorem block (h : Recovers ReadsStatements xs xs' fault) (hb : b.is Code.beginWord = true)
    (he : e.is Code.endWord = true) (F : List Token → Prop) :
    Recovers (ReadsStatement F) (b :: (xs ++ [e])) (b :: (xs' ++ [e])) fault := by
  obtain ⟨es, es', hread, hread', hes⟩ := h
  exact ⟨es, es', hread.block hb he F, hread'.block hb he F, hes⟩

theorem empty (h : Recovers ReadsStatements xs xs' fault) (hc : c.is Code.semicolon = true) :
    Recovers ReadsStatements (c :: xs) (c :: xs') fault := by
  obtain ⟨es, es', hread, hread', hes⟩ := h
  exact ⟨es, es', hread.empty hc, hread'.empty hc, hes⟩

theorem last (h : Recovers (ReadsStatement Ended) xs xs' fault) :
    Recovers ReadsStatements xs xs' fault := by
  obtain ⟨es, es', hread, hread', hes⟩ := h
  exact ⟨es, es', hread.last, hread'.last, hes⟩

theorem cons_first (h : Recovers (ReadsStatement Ended) xs xs' fault)
    (hc : c.is Code.semicolon = true) (k : ReadsStatements ys fs)
    (hfs : ∀ x ∈ fs, x.isNameCheck = true) :
    Recovers ReadsStatements (xs ++ c :: ys) (xs' ++ c :: ys) fault := by
  obtain ⟨es, es', hread, hread', hes, hfault, hes'⟩ := h
  refine ⟨es ++ fs, es' ++ fs, hread.cons hc k, hread'.cons hc k, ?_, ?_, ?_⟩
  · intro x hx
    exact (List.mem_append.1 hx).elim (hes x) (hfs x)
  · exact List.mem_append_left fs hfault
  · intro x hx
    rcases List.mem_append.1 hx with hx | hx
    · exact (hes' x hx).imp id (List.mem_append_left fs)
    · exact .inr (List.mem_append_right es hx)

theorem cons_rest (h : ReadsStatement Ended xs es) (hes : ∀ x ∈ es, x.isNameCheck = true)
    (hc : c.is Code.semicolon = true) (k : Recovers ReadsStatements ys ys' fault) :
    Recovers ReadsStatements (xs ++ c :: ys) (xs ++ c :: ys') fault := by
  obtain ⟨fs, fs', hread, hread', hfs, hfault, hfs'⟩ := k
  refine ⟨es ++ fs, es ++ fs', h.cons hc hread, h.cons hc hread', ?_, ?_, ?_⟩
  · intro x hx
    exact (List.mem_append.1 hx).elim (hes x) (hfs x)
  · exact List.mem_append_right es hfault
  · intro x hx
    rcases List.mem_append.1 hx with hx | hx
    · exact .inr (List.mem_append_left fs hx)
    · exact (hfs' x hx).imp id (List.mem_append_right es)

theorem between (h : ReadsStatement Unextended (front ++ [e]) es)
    (hes : ∀ x ∈ es, x.isNameCheck = true) (hc : c.is Code.semicolon = true)
    (hf : StartsStatement f) (hread : ReadsStatements (f :: ys) fs) (k : Resumes (f :: ys) fs')
    (hfs : ∀ x ∈ fs, x.isNameCheck = true) (hsub : fs' ⊆ fs) :
    Recovers ReadsStatements (front ++ e :: c :: f :: ys) (front ++ e :: f :: ys)
      (.fault .missingSemicolon e.line) := by
  have hfirst := h.ended.cons hc hread
  rw [List.append_assoc, List.singleton_append] at hfirst
  refine ⟨es ++ fs, _, hfirst, h.unterminated hf k, ?_, by simp, ?_⟩
  · intro x hx
    exact (List.mem_append.1 hx).elim (hes x) (hfs x)
  · intro x hx
    rcases List.mem_append.1 hx with hx | hx
    · exact .inr (List.mem_append_left fs hx)
    · rcases List.mem_cons.1 hx with rfl | hx
      · exact .inl rfl
      · exact .inr (List.mem_append_right es (hsub hx))

end Recovers

theorem mem_of_split (h : a :: xs = front ++ e :: c :: back) : c ∈ xs := by
  cases front with
  | nil =>
    obtain ⟨rfl, rfl⟩ := List.cons.inj h
    exact List.mem_cons_self
  | cons b front =>
    obtain ⟨rfl, rfl⟩ := List.cons.inj h
    simp

/-- Two tokens in a row stand before a third, around it or behind it. -/
theorem split_around (h : front ++ e :: c :: back = xs ++ d :: ys) :
    (∃ back', xs = front ++ e :: c :: back' ∧ back = back' ++ d :: ys) ∨
      (xs = front ++ [e] ∧ c = d ∧ back = ys) ∨ (e = d ∧ ys = c :: back) ∨
        ∃ front', front = xs ++ d :: front' ∧ ys = front' ++ e :: c :: back := by
  rcases List.append_eq_append_iff.1 h with ⟨gap, rfl, hgap⟩ | ⟨gap, rfl, hgap⟩
  · rcases gap with _ | ⟨x, _ | ⟨y, gap⟩⟩
    · obtain ⟨rfl, rfl⟩ := List.cons.inj hgap
      exact .inr (.inr (.inl ⟨rfl, rfl⟩))
    · obtain ⟨rfl, rfl, rfl⟩ : e = x ∧ c = d ∧ back = ys := by simpa using hgap
      exact .inr (.inl ⟨rfl, rfl, rfl⟩)
    · obtain ⟨rfl, rfl, rfl⟩ : e = x ∧ c = y ∧ back = gap ++ d :: ys := by simpa using hgap
      exact .inl ⟨gap, rfl, rfl⟩
  · rcases gap with _ | ⟨x, gap⟩
    · obtain ⟨rfl, rfl⟩ := List.cons.inj hgap
      exact .inr (.inr (.inl ⟨rfl, rfl⟩))
    · obtain ⟨rfl, rfl⟩ := List.cons.inj hgap
      exact .inr (.inr (.inr ⟨gap, rfl, rfl⟩))

theorem not_interior (hin : Separates c) :
    ¬ Interior c := by
  intro h
  rcases hin with hc | hc
  · rw [h _ (by decide)] at hc
    cases hc
  · rw [h _ (by decide)] at hc
    cases hc

/-- Tokens that are read, up to the rest, recover from one that is left out among them. -/
def Recoverable (Reads : List Token → List Event → Prop) (ts us : List Token) : Prop :=
  ∀ front e c back cause, ts = front ++ e :: c :: back ++ us → (∀ x ∈ ts, x.Coherent) →
    Slip e c (back ++ us) cause → Separates c →
    Recovers Reads (front ++ e :: c :: back) (front ++ e :: back) (.fault cause e.line)

theorem recoverable_assign (hk : t.kind = .ident) (ha : a.is Code.assign = true)
    (he : Expression ts us) : Recoverable (ReadsStatement Ended) (t :: a :: ts) us := by
  intro front e c back cause hsplit hts hslip hin
  obtain ⟨xs, es, rfl, hes, hread⟩ := readsStatement_assign hk ha he
  obtain ⟨xs', hxs', hinterior⟩ := he.interior fun x hx => hts x (by simp [hx])
  obtain rfl : xs = xs' := List.append_cancel_right hxs'
  have hall : t :: a :: xs = front ++ e :: c :: back := List.append_cancel_right hsplit
  cases front with
  | nil =>
    obtain ⟨rfl, rfl, rfl⟩ : t = e ∧ a = c ∧ xs = back := by simpa using hall
    obtain ⟨-, rfl⟩ := hslip.of_assign ha
    exact ⟨es, _, hread.ended, readsStatement_unassigned hk hinterior, hes,
      List.mem_singleton_self _, fun x hx => .inl (List.mem_singleton.1 hx)⟩
  | cons t' front =>
    obtain ⟨-, hall'⟩ := List.cons.inj hall
    exact absurd (hinterior c (mem_of_split hall')) (not_interior hin)

theorem recoverable_output (ho : Output ts us) :
    Recoverable (ReadsStatement Ended) (w :: ts) us := by
  intro front e c back cause hsplit hts _ hin
  obtain ⟨xs, rfl, hinterior⟩ := ho.interior fun x hx => hts x (List.mem_cons_of_mem w hx)
  have hall : w :: xs = front ++ e :: c :: back := List.append_cancel_right hsplit
  exact absurd (hinterior c (mem_of_split hall)) (not_interior hin)

theorem recoverable_block (hb : b.is Code.beginWord = true) (h : Statements ts (d :: us))
    (hd : d.is Code.endWord = true) (ih : Recoverable ReadsStatements ts (d :: us)) :
    Recoverable (ReadsStatement Ended) (b :: ts) us := by
  intro front e c back cause hsplit hts hslip hin
  obtain ⟨xs, -, rfl, -, -⟩ := statements_complete h
  have hall : front ++ e :: c :: back ++ us = (b :: xs ++ d :: []) ++ us := by
    simpa using hsplit.symm
  obtain ⟨-, hbegin⟩ := hslip.before (hts e (by simp [hsplit])) hin
  rcases split_around (List.append_cancel_right hall) with
    ⟨back, hxs, rfl⟩ | ⟨-, rfl, -⟩ | ⟨-, hnil⟩ | ⟨front, -, hnil⟩
  · cases front with
    | nil =>
      obtain ⟨rfl, -⟩ := List.cons.inj hxs
      rw [hb] at hbegin
      cases hbegin
    | cons x front =>
      obtain ⟨rfl, rfl⟩ := List.cons.inj hxs
      rw [List.append_assoc] at hslip
      have hi := ih front e c back cause rfl (fun x hx => hts x (List.mem_cons_of_mem b hx)) hslip
        hin
      simpa using hi.block hb hd Ended
  · rw [hin.is_eq_false (by decide) (by decide)] at hd
    cases hd
  · cases hnil
  · exact absurd hnil.symm (by simp)

theorem recoverable_nil (us : List Token) : Recoverable ReadsStatements us us := by
  intro front e c back cause hsplit _ _ _
  have hlength := congrArg List.length hsplit
  simp only [List.length_append, List.length_cons] at hlength
  omega

theorem Recoverable.empty (h : Recoverable ReadsStatements ts us)
    (hd : d.is Code.semicolon = true) : Recoverable ReadsStatements (d :: ts) us := by
  intro front e c back cause hsplit hts hslip hin
  obtain ⟨he, -⟩ := hslip.before (hts e (by simp [hsplit])) hin
  cases front with
  | nil =>
    obtain ⟨rfl, -⟩ := List.cons.inj hsplit
    rw [hd] at he
    cases he
  | cons x front =>
    obtain ⟨rfl, hrest⟩ := List.cons.inj hsplit
    have hts' : ∀ x ∈ ts, x.Coherent := fun x hx => hts x (List.mem_cons_of_mem d hx)
    exact (h front e c back cause hrest hts' hslip hin).empty hd

theorem Recoverable.last (h : Recoverable (ReadsStatement Ended) ts us) :
    Recoverable ReadsStatements ts us := by
  intro front e c back cause hsplit hts hslip hin
  exact (h front e c back cause hsplit hts hslip hin).last

theorem Recoverable.cons (h : Recoverable (ReadsStatement Ended) ts (d :: ts₁))
    (hst : Statement ts (d :: ts₁)) (hd : d.is Code.semicolon = true)
    (k : Recoverable ReadsStatements ts₁ us) (hrest : Statements ts₁ us) (hus : BeforeEnd us) :
    Recoverable ReadsStatements ts us := by
  intro front e c back cause hsplit hts hslip hin
  obtain ⟨xs, es, rfl, hes, hread⟩ := statement_complete hst
  obtain ⟨ys, fs, rfl, hfs, hread'⟩ := statements_complete hrest
  have hall : front ++ e :: c :: back ++ us = (xs ++ d :: ys) ++ us := by
    simpa using hsplit.symm
  have hts' : ∀ x ∈ ys ++ us, x.Coherent := fun x hx => hts x (by simp [hx])
  obtain ⟨he, -⟩ := hslip.before (hts e (by simp [hsplit])) hin
  rcases split_around (List.append_cancel_right hall) with
    ⟨back, rfl, rfl⟩ | ⟨rfl, rfl, rfl⟩ | ⟨rfl, -⟩ | ⟨front, rfl, rfl⟩
  · have hslip' : Slip e c (back ++ d :: (ys ++ us)) cause := by simpa using hslip
    have hi := h front e c back cause rfl hts hslip' hin
    simpa using hi.cons_first hd hread' hfs
  · obtain ⟨-, -, rfl, f, ts, hback, hf⟩ := hslip.of_semicolon hd
    rw [hback] at hrest hts'
    obtain ⟨zs, gs, gs', rfl, hzs, hresume, hgs, hsub⟩ := statements_resume hrest hts' hus hf
    obtain rfl : back = f :: zs := List.append_cancel_right hback
    exact .between hread hes hd hf hzs hresume hgs hsub
  · rw [hd] at he
    cases he
  · have hi := k front e c back cause rfl hts' hslip hin
    simpa using Recovers.cons_rest hread.ended hes hd hi

mutual

theorem statement_recoverable (h : Statement ts us) : Recoverable (ReadsStatement Ended) ts us :=
  match h with
  | .assign hk ha he => recoverable_assign hk ha he
  | .output _ ho => recoverable_output ho
  | .block hb hinner he =>
    recoverable_block hb hinner he (statements_recoverable hinner (beforeEnd_cons he))

theorem statements_recoverable (h : Statements ts us) (hus : BeforeEnd us) :
    Recoverable ReadsStatements ts us :=
  match h with
  | .nil => recoverable_nil _
  | .empty hc hrest => (statements_recoverable hrest hus).empty hc
  | .last hst => (statement_recoverable hst).last
  | .cons hst hc hrest =>
    (statement_recoverable hst).cons hst hc (statements_recoverable hrest hus) hrest hus

end

end Reader

end PascalCheck
