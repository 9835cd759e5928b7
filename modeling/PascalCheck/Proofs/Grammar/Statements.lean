import PascalCheck.Proofs.Grammar.Declarations
import PascalCheck.Proofs.Reader.Log

namespace PascalCheck.Grammar
set_option autoImplicit true

theorem Expression.head (h : Expression ts us) :
    ∃ t vs, ts = t :: vs ∧ (t.Coherent → t.is Code.rightParen = false) := by
  cases h with
  | signed hsign hk =>
    refine ⟨_, _, rfl, fun _ => ?_⟩
    rcases hsign with hsign | hsign
    · exact Token.is_eq_false hsign (by decide)
    · exact Token.is_eq_false hsign (by decide)
  | number hk => exact ⟨_, _, rfl, fun ht => ht.is_eq_false_of_number hk (by decide) (by decide)⟩
  | name hk => exact ⟨_, _, rfl, fun ht => ht.is_eq_false_of_ident hk (by decide)⟩
  | paren hl _ _ => exact ⟨_, _, rfl, fun _ => Token.is_eq_false hl (by decide)⟩

theorem Arguments.head (h : Arguments ts us) :
    ∃ t vs, ts = t :: vs ∧ (t.Coherent → t.is Code.rightParen = false) := by
  cases h with
  | last he => exact he.head
  | cons he _ _ => exact he.head

theorem Block.head (h : Block ts us) : ∃ b vs, ts = b :: vs ∧ b.is Code.beginWord = true := by
  obtain ⟨hb, -, -⟩ := h
  exact ⟨_, _, rfl, hb⟩

end PascalCheck.Grammar

namespace PascalCheck.Reader
set_option autoImplicit true
open Grammar

theorem passes_checkOperand (s : Reader) (e : Expr) : Passes s (s.checkOperand e) s.tokens := by
  unfold checkOperand
  split
  · exact .emit s (by simp)
  · exact .emit s (by simp)
  · exact .refl s

theorem passes_checkAssignment (s : Reader) (target : Ident) (value : Expr) :
    Passes s (s.checkAssignment target value) s.tokens := by
  unfold checkAssignment
  split
  · exact .emit s (by simp)
  · exact .emit s (by simp)
  · exact .refl s

theorem YieldsExpr.sound (h : YieldsExpr s e s') : Expression s.tokens s'.tokens := by
  induction h with
  | signed hs hsign ht hk =>
    rw [tokens_of_here? hs, tokens_of_here? ht]
    exact .signed hsign hk
  | number hs hk =>
    rw [tokens_of_here? hs]
    exact .number hk
  | name hs hk =>
    rw [tokens_of_here? hs]
    exact .name hk
  | paren hs hl _ hr ih =>
    obtain ⟨r, ts, hu, hright⟩ := sees_iff.1 hr
    rw [hu] at ih
    rw [tokens_of_here? hs, tokens_advance_of hu]
    exact .paren hl ih hright

theorem expression_not_clean (h : expression s = (none, s')) : ¬ s'.Clean := by
  fun_induction expression s generalizing s' with
  | case1 s hs =>
    cases h
    exact not_clean_unexpected _ _
  | case2 s t hs hsign =>
    unfold signedNumber at h
    split at h
    · cases h
      exact not_clean_unexpected _ _
    split at h
    · cases h
    · cases h
      exact not_clean_unexpected _ _
  | case3 s t hs _ hk => cases h
  | case4 s t hs _ _ hk => cases h
  | case5 s t hs _ _ _ hl u he ih =>
    cases h
    exact ih he
  | case6 s t hs _ _ _ hl inner u he hr ih => cases h
  | case7 s t hs _ _ _ hl inner u he hr ih =>
    cases h
    exact not_clean_unexpected _ _
  | case8 s t hs =>
    cases h
    exact not_clean_unexpected _ _

theorem YieldsArguments.sound (h : YieldsArguments s es s') : Arguments s.tokens s'.tokens := by
  induction h with
  | last he =>
    rw [(passes_checkOperand _ _).tokens_eq]
    exact .last (yieldsExpr he).sound
  | @cons s u s' e es he hc _ ih =>
    obtain ⟨c, ts, hs, hcomma⟩ := sees_iff.1 hc
    have hx := (yieldsExpr he).sound
    rw [← (passes_checkOperand u e).tokens_eq, hs] at hx
    rw [tokens_advance_of hs] at ih
    exact .cons hx hcomma ih

theorem arguments_not_clean (h : arguments s = (none, s')) : ¬ s'.Clean := by
  fun_induction arguments s generalizing s' with
  | case1 s t he =>
    cases h
    exact expression_not_clean he
  | case2 s e t he hc t' ha ih =>
    cases h
    exact ih ha
  | case3 s e t he hc es t' ha ih => cases h
  | case4 s e t he hc => cases h

theorem assignment_sound (hk : t.kind = .ident) (h : (assignment target s).2.Clean) :
    ∃ s₁ : Reader, (assignment target s).2 = s₁.endStatement ∧
      Statement (t :: s.tokens) s₁.tokens := by
  have hfail : ¬ (s.report .missingAssign target.token.line).synchronize.Clean :=
    Reads.not_clean (reads_synchronize (P := Complaint) _)
  unfold assignment at h ⊢
  split
  · rename_i hs
    rw [hs] at h
    exact absurd h hfail
  · rename_i a ha
    rw [ha] at h
    dsimp only at h ⊢
    split
    · rename_i hassign
      rw [if_pos hassign] at h
      split
      · rename_i s' he
        rw [he] at h
        exact absurd ((reads_synchronize (P := Complaint) s').clean h) (expression_not_clean he)
      · rename_i value s' he
        refine ⟨_, rfl, ?_⟩
        rw [(passes_checkAssignment _ _ _).tokens_eq, tokens_of_here? ha]
        exact .assign hk hassign (yieldsExpr he).sound
    · rename_i hassign
      rw [if_neg hassign] at h
      exact absurd h hfail

theorem output_sound (hw : w.is Code.writelnWord = true) (h : (output w s).2.Clean) :
    ∃ s₁ : Reader, (output w s).2 = s₁.endStatement ∧ Statement (w :: s.tokens) s₁.tokens := by
  unfold output at h ⊢
  split
  · rename_i hl
    obtain ⟨l, ts, hs, hleft⟩ := sees_iff.1 hl
    rw [if_pos hl] at h
    rw [tokens_of_here? (here?_of_tokens hs)]
    split
    · rename_i hr
      obtain ⟨r, us, hs', hright⟩ := sees_iff.1 hr
      refine ⟨_, rfl, .output hw ?_⟩
      rw [tokens_of_here? (here?_of_tokens hs')]
      exact .empty hleft hright
    · rename_i hr
      rw [if_neg hr] at h
      split
      · rename_i s' ha
        rw [ha] at h
        exact absurd ((reads_synchronize (P := Complaint) s').clean h) (arguments_not_clean ha)
      · rename_i args s' ha
        rw [ha] at h
        dsimp only at h ⊢
        split
        · rename_i hr'
          obtain ⟨r, us, hs', hright⟩ := sees_iff.1 hr'
          have hx := (yieldsArguments ha).sound
          rw [tokens_of_here? (here?_of_tokens hs')] at hx
          exact ⟨_, rfl, .output hw (.arguments hleft hx hright)⟩
        · rename_i hr'
          rw [if_neg hr'] at h
          exact absurd h (Reads.not_clean (reads_synchronize (P := Complaint) _))
  · exact ⟨s, rfl, .output hw .none⟩

/-- Where nothing is reported, a semicolon or a statement was read. -/
theorem simpleStatement_sound {s : Reader} (hs : s.here? = some t)
    (h : (simpleStatement t s).2.Clean) :
    (t.is Code.semicolon = true ∧ (simpleStatement t s).2 = s.advance) ∨
      ∃ s₁ : Reader, (simpleStatement t s).2 = s₁.endStatement ∧ Statement s.tokens s₁.tokens := by
  rw [tokens_of_here? hs]
  unfold simpleStatement at h ⊢
  split
  · rename_i hc
    exact .inl ⟨hc, rfl⟩
  rename_i hc
  rw [if_neg hc] at h
  split
  · rename_i hk
    rw [if_pos hk] at h
    exact .inr (assignment_sound hk h)
  rename_i hk
  rw [if_neg hk] at h
  split
  · rename_i hw
    rw [if_pos hw] at h
    exact .inr (output_sound hw h)
  · rename_i hw
    rw [if_neg hw] at h
    have hahead : (s.unexpected .statement).here? = some t := hs
    exact absurd h (Reads.not_clean (.take (P := Complaint) hahead (reads_synchronize _)))

theorem statements_endStatement {s : Reader} (hst : Statement ts s.tokens)
    (h : s.endStatement.Clean)
    (hrest : Statements s.endStatement.tokens (statements s.endStatement).2.tokens) :
    Statements ts (statements s.endStatement).2.tokens := by
  unfold endStatement at h hrest ⊢
  split
  · rename_i hc
    obtain ⟨c, us, hs, hsemi⟩ := sees_iff.1 hc
    rw [if_pos hc, tokens_advance_of hs] at hrest
    rw [hs] at hst
    exact .cons hst hsemi hrest
  · rename_i hc
    rw [if_neg hc] at h
    split
    · rename_i hend
      have hstop : statements s = ([], s) := by
        apply statements_stop
        intro t ht
        have hs := tokens_of_here? ht
        have hne : s.atEnd = false := by
          rw [Bool.eq_false_iff, ne_eq, atEnd_iff]
          simp [hs]
        simpa [isBlockEnd, sees_of_tokens hs, hne] using hend
      rw [hstop]
      exact .last hst
    · rename_i hend
      rw [if_neg hend] at h
      exact absurd h (Reads.not_clean (reads_synchronize (P := Complaint) _))

theorem closeBlock_sound {s : Reader} (h : s.closeBlock.Clean) :
    ∃ e, s.tokens = e :: s.closeBlock.tokens ∧ e.is Code.endWord = true := by
  unfold closeBlock at h ⊢
  split
  · rename_i he
    obtain ⟨e, ts, hs, hend⟩ := sees_iff.1 he
    exact ⟨e, tokens_of_here? (here?_of_tokens hs), hend⟩
  · rename_i he
    rw [if_neg he] at h
    exact absurd h (not_clean_report _ _ _)

theorem statements_sound (hs : Sound s) (h : (statements s).2.Clean) :
    Statements s.tokens (statements s).2.tokens := by
  induction s using statements_induction with
  | stop s hstop =>
    rw [statements_stop hstop]
    exact .nil
  | block s t ht hb ihin ihout =>
    rw [statements_block ht hb] at h ⊢
    have hin := reads_statements hs.advance
    have hout := ((reads_closeBlock (statements s.advance).2).trans
      (reads_endStatement _)).checking
    have hsound := (hin.trans hout).sound hs.advance
    have hend := (reads_statements hsound).clean h
    have hclose := (reads_endStatement _).clean hend
    obtain ⟨e, he, hword⟩ := closeBlock_sound hclose
    have hinner := ihin hs.advance ((reads_closeBlock _).clean hclose)
    rw [he] at hinner
    refine statements_endStatement ?_ hend (ihout hsound h)
    rw [tokens_of_here? ht]
    exact .block hb hinner hword
  | simple s t ht he hb ih =>
    rw [statements_simple ht he hb] at h ⊢
    have hsound := (reads_simpleStatement hs ht).sound hs
    have hfirst := (reads_statements hsound).clean h
    have hrest := ih hsound h
    rcases simpleStatement_sound ht hfirst with ⟨hc, hskip⟩ | ⟨s₁, hskip, hst⟩
    · rw [hskip] at hrest ⊢
      rw [tokens_of_here? ht]
      exact .empty hc hrest
    · rw [hskip] at hfirst hrest ⊢
      exact statements_endStatement hst hfirst hrest

theorem openBody_sound {s : Reader} (h : s.openBody.Clean) :
    ∃ b, s.tokens = b :: s.openBody.tokens ∧ b.is Code.beginWord = true := by
  unfold openBody at h ⊢
  split
  · rename_i hb
    obtain ⟨b, ts, hs, hbegin⟩ := sees_iff.1 hb
    exact ⟨b, tokens_of_here? (here?_of_tokens hs), hbegin⟩
  · rename_i hb
    rw [if_neg hb] at h
    exact absurd h (Reads.not_clean ((reads_skipWhile (P := Complaint) _ _).trans
      (reads_accept _ _)))

theorem block_sound (hs : Sound s) (h : s.block.2.Clean) :
    Grammar.Block s.tokens s.block.2.tokens := by
  rw [block_eq] at h ⊢
  have hsound := (reads_openBody s).sound hs
  have hstatements := (reads_closeBlock _).clean h
  obtain ⟨e, he, hend⟩ := closeBlock_sound h
  obtain ⟨b, hb, hbegin⟩ := openBody_sound ((reads_statements hsound).clean hstatements)
  have hinner := statements_sound hsound hstatements
  rw [he] at hinner
  rw [hb]
  exact .mk hbegin hinner hend

theorem header_sound {s : Reader} (h : s.header.2.Clean) : Heading s.tokens s.header.2.tokens := by
  have hfail : ¬ (s.advance.unexpected .programName).synchronize.Clean :=
    Reads.not_clean (reads_synchronize (P := Complaint) _)
  unfold header at h ⊢
  split
  · rename_i hp
    obtain ⟨p, ts, hs, hprogram⟩ := sees_iff.1 hp
    rw [if_pos hp] at h
    split
    · rename_i hn
      rw [hn] at h
      exact absurd h hfail
    · rename_i n hn
      rw [hn] at h
      dsimp only at h ⊢
      split
      · rename_i hk
        rw [if_pos hk] at h
        obtain ⟨c, hs', hc⟩ := expectSemicolon_sound h
        rw [tokens_of_here? (here?_of_tokens hs), tokens_of_here? hn, hs']
        exact .named hprogram hk hc
      · rename_i hk
        rw [if_neg hk] at h
        exact absurd h hfail
  · exact .none

theorem terminator_sound {s : Reader} (h : s.terminator.Clean) :
    ∃ d, s.tokens = [d] ∧ d.is Code.dot = true := by
  unfold terminator at h
  split at h
  · rename_i hd
    obtain ⟨d, ts, hs, hdot⟩ := sees_iff.1 hd
    dsimp only at h
    split at h
    · rename_i hend
      have hnil := atEnd_iff.1 hend
      rw [tokens_advance_of (s := s.emit .balance) hs] at hnil
      rw [hnil] at hs
      exact ⟨d, hs, hdot⟩
    · exact absurd h (Reads.not_clean (reads_drain (P := Complaint) _))
  · exact absurd h (Reads.not_clean (reads_drain (P := Complaint) _))

theorem program_sound (hs : Sound s) (h : s.program.2.Clean) :
    Grammar.Program NestedHeader s.tokens := by
  rw [program_eq] at h
  have hdeclared := (reads_declared s).sound hs
  have hblock := (reads_terminator _).clean h
  have hbody := (reads_block hdeclared).clean hblock
  obtain ⟨d, hd, hdot⟩ := terminator_sound h
  have hb := block_sound hdeclared hblock
  rw [hd] at hb
  have hh := header_sound ((reads_declarations _).clean hbody)
  rcases declarations_sound hbody with hnil | hdecls
  · -- A body that runs to the end of the input leaves no block.
    have hnil' : s.declared.tokens = [] := hnil
    rw [hnil'] at hb
    cases hb
  · exact .mk hh hdecls hb hdot

theorem expression_cons [Log α] {s : Reader α} (hs : s.tokens = t :: ts) :
    expression s =
      if t.is Code.plus || t.is Code.minus then signedNumber t s.advance
      else if t.kind = .number then (some (.number t t.lexeme t.isReal), s.advance)
      else if t.kind = .ident then (some (.ident ⟨t, t.lexeme⟩), s.advance)
      else if t.is Code.leftParen then
        match expression s.advance with
        | (none, s) => (none, s)
        | (some inner, s) =>
          if s.sees Code.rightParen then (some (.paren t inner), s.advance)
          else (none, s.unexpected .rightParen)
      else (none, s.unexpected .expression) := by
  have hh := here?_of_tokens hs
  rw [expression]
  split
  · simp_all
  · rename_i u hu
    obtain rfl : u = t := by simpa [hh] using hu.symm
    rfl

theorem expression_complete (h : Expression ts us) :
    ∃ xs e, ts = xs ++ us ∧ xs ≠ [] ∧ ∀ s vs, Sound s → s.tokens = xs ++ vs →
      ∃ s', expression s = (some e, s') ∧ Took s xs [] s' := by
  induction h with
  | @signed sign t ts hsign hk =>
    refine ⟨[sign, t], .number t (t.literal (sign.is Code.minus)).text t.isReal, rfl, by simp, ?_⟩
    intro s vs hsound hs
    have ha := Took.advance hsound hs
    have hor : (sign.is Code.plus || sign.is Code.minus) = true := by simpa using hsign
    rw [expression_cons hs, if_pos hor, signedNumber, here?_of_tokens (ha.rest_eq hs)]
    simp only [hk, if_true]
    exact ⟨_, rfl, ha.take (ha.rest_eq hs)⟩
  | @number t ts hk =>
    refine ⟨[t], .number t t.lexeme t.isReal, rfl, by simp, ?_⟩
    intro s vs hsound hs
    have hcoherent := hsound.coherent_of_tokens hs
    have hplus : t.is Code.plus = false :=
      hcoherent.is_eq_false_of_number hk (by decide) (by decide)
    have hminus : t.is Code.minus = false :=
      hcoherent.is_eq_false_of_number hk (by decide) (by decide)
    rw [expression_cons hs, hplus, hminus, if_neg (by decide), if_pos hk]
    exact ⟨_, rfl, .advance hsound hs⟩
  | @name t ts hk =>
    refine ⟨[t], .ident ⟨t, t.lexeme⟩, rfl, by simp, ?_⟩
    intro s vs hsound hs
    have hcoherent := hsound.coherent_of_tokens hs
    have hplus : t.is Code.plus = false := hcoherent.is_eq_false_of_ident hk (by decide)
    have hminus : t.is Code.minus = false := hcoherent.is_eq_false_of_ident hk (by decide)
    rw [expression_cons hs, hplus, hminus, hk]
    exact ⟨_, rfl, .advance hsound hs⟩
  | @paren ts r us l hl _ hr ih =>
    obtain ⟨xs, e, rfl, -, hread⟩ := ih
    refine ⟨l :: (xs ++ [r]), .paren l e, by simp, by simp, ?_⟩
    intro s vs hsound hs
    have hcoherent := hsound.coherent_of_tokens hs
    have ha := Took.advance hsound hs
    have hs' : s.advance.tokens = xs ++ r :: vs := by simpa using ha.rest_eq hs
    obtain ⟨s', he, hp⟩ := hread s.advance (r :: vs) ha.sound hs'
    have hplus : l.is Code.plus = false := Token.is_eq_false hl (by decide)
    have hminus : l.is Code.minus = false := Token.is_eq_false hl (by decide)
    rw [expression_cons hs, hplus, hminus, if_neg (by decide),
      if_neg (hcoherent.kind_ne_number hl (by decide) (by decide)),
      if_neg (hcoherent.kind_ne_ident hl (by decide)), if_pos hl, he]
    dsimp only
    rw [sees_of_tokens (hp.rest_eq hs'), if_pos hr]
    exact ⟨_, rfl, ha.trans (hp.take (hp.rest_eq hs'))⟩

theorem arguments_expression [Log α] {s s' : Reader α} (he : expression s = (some e, s')) :
    arguments s =
      if (s'.checkOperand e).sees Code.comma then
        match arguments (s'.checkOperand e).advance with
        | (none, t) => (none, t)
        | (some es, t) => (some (e :: es), t)
      else (some [e], s'.checkOperand e) := by
  rw [arguments]
  split
  · simp_all
  · rename_i hx
    obtain ⟨rfl, rfl⟩ : e = _ ∧ s' = _ := by simpa [he] using hx
    rfl

theorem arguments_complete (h : Arguments ts us) :
    ∃ xs args es, ts = xs ++ us ∧ xs ≠ [] ∧ (∀ e ∈ es, e.isNameCheck = true) ∧
      ∀ s vs, Sound s → s.tokens = xs ++ vs → (∀ t ∈ vs.head?, t.is Code.comma = false) →
        ∃ s', arguments s = (some args, s') ∧ Took s xs es s' := by
  induction h with
  | last he =>
    obtain ⟨xs, e, rfl, hne, hread⟩ := expression_complete he
    obtain ⟨es, hes, hcheck⟩ := exists_checkOperand e
    refine ⟨xs, [e], es, rfl, hne, hes, ?_⟩
    intro s vs hsound hs hf
    obtain ⟨s', hx, hp⟩ := hread s vs hsound hs
    have hall := hp.trans (hcheck s' hp.sound)
    rw [List.append_nil] at hall
    have hcomma : (s'.checkOperand e).sees Code.comma = false := by
      apply sees_eq_false
      rw [hall.rest_eq hs]
      exact hf
    rw [arguments_expression hx, hcomma]
    exact ⟨_, rfl, hall⟩
  | @cons _ c _ _ he hcomma _ ih =>
    obtain ⟨xs, e, rfl, -, hread⟩ := expression_complete he
    obtain ⟨es, hes, hcheck⟩ := exists_checkOperand e
    obtain ⟨ys, args, fs, rfl, -, hfs, hrest⟩ := ih
    refine ⟨xs ++ c :: ys, e :: args, es ++ fs, by simp, by simp, ?_, ?_⟩
    · intro f hf
      exact (List.mem_append.1 hf).elim (hes f) (hfs f)
    intro s vs hsound hs hf
    have hs' : s.tokens = xs ++ c :: (ys ++ vs) := by simpa using hs
    obtain ⟨s', hx, hp⟩ := hread s _ hsound hs'
    have hall := hp.trans (hcheck s' hp.sound)
    rw [List.append_nil] at hall
    have ha := Took.advance hall.sound (hall.rest_eq hs')
    obtain ⟨s'', hy, hp'⟩ := hrest _ vs ha.sound (ha.rest_eq (hall.rest_eq hs')) hf
    rw [arguments_expression hx, sees_of_tokens (hall.rest_eq hs'), if_pos hcomma, hy]
    exact ⟨_, rfl, hall.trans (ha.trans hp')⟩

theorem output_complete (h : Output ts us) :
    ∃ xs es, ts = xs ++ us ∧ (∀ e ∈ es, e.isNameCheck = true) ∧
      ∀ s vs w, Sound s → s.tokens = xs ++ vs → (∀ t ∈ vs.head?, t.is Code.leftParen = false) →
        ∃ s₁ : Reader, (output w s).2 = s₁.endStatement ∧ Took s xs es s₁ := by
  cases h with
  | none =>
    refine ⟨[], [], rfl, by simp, ?_⟩
    intro s vs w hsound hs hf
    have hl : s.sees Code.leftParen = false := by
      apply sees_eq_false
      rw [hs]
      exact hf
    rw [output, hl]
    exact ⟨s, rfl, .refl hsound⟩
  | @empty l r ts hl hr =>
    refine ⟨[l, r], [], rfl, by simp, ?_⟩
    intro s vs w hsound hs _
    have ha := Took.advance hsound hs
    rw [output, sees_of_tokens hs, if_pos hl, sees_of_tokens (ha.rest_eq hs), if_pos hr]
    exact ⟨_, rfl, ha.take (ha.rest_eq hs)⟩
  | @arguments ts r _ l hl hargs hr =>
    obtain ⟨t, ts', hts, hstart⟩ := hargs.head
    obtain ⟨xs, args, es, rfl, hne, hes, hread⟩ := arguments_complete hargs
    obtain ⟨u, xs, rfl⟩ := List.exists_cons_of_ne_nil hne
    obtain ⟨rfl, -⟩ := List.cons.inj hts
    refine ⟨l :: (u :: xs ++ [r]), es, by simp, hes, ?_⟩
    intro s vs w hsound hs _
    have ha := Took.advance hsound hs
    have hs' : s.advance.tokens = u :: xs ++ r :: vs := by simpa using ha.rest_eq hs
    have hright := hstart (ha.sound.coherent_of_tokens hs')
    have hcomma : ∀ t ∈ (r :: vs).head?, t.is Code.comma = false := by
      intro t hmem
      obtain rfl : r = t := by simpa using hmem
      exact Token.is_eq_false hr (by decide)
    obtain ⟨s', hx, hp⟩ := hread _ _ ha.sound hs' hcomma
    rw [output, sees_of_tokens hs, if_pos hl, sees_of_tokens hs', hright, if_neg (by decide), hx]
    dsimp only
    rw [sees_of_tokens (hp.rest_eq hs'), if_pos hr]
    exact ⟨_, rfl, ha.trans (hp.take (hp.rest_eq hs'))⟩

theorem assignment_complete (h : Expression ts us) :
    ∃ xs, ts = xs ++ us ∧ ∀ target, ∃ es, (∀ e ∈ es, e.isNameCheck = true) ∧
      ∀ s vs a, Sound s → s.tokens = a :: (xs ++ vs) → a.is Code.assign = true →
        ∃ s₁ : Reader, (assignment target s).2 = s₁.endStatement ∧ Took s (a :: xs) es s₁ := by
  obtain ⟨xs, e, rfl, -, hread⟩ := expression_complete h
  refine ⟨xs, rfl, ?_⟩
  intro target
  obtain ⟨es, hes, hcheck⟩ := exists_checkAssignment target e
  refine ⟨es, hes, ?_⟩
  intro s vs a hsound hs ha
  have hp := Took.advance hsound hs
  obtain ⟨s', hx, hp'⟩ := hread s.advance vs hp.sound (hp.rest_eq hs)
  have hall := hp.trans (hp'.trans (hcheck s' hp'.sound))
  rw [List.append_nil] at hall
  rw [assignment, here?_of_tokens hs]
  simp only [ha, if_true, hx]
  exact ⟨_, rfl, hall⟩

theorem endStatement_semicolon {s : Reader} (hs : s.tokens = c :: ts)
    (hc : c.is Code.semicolon = true) : s.endStatement = s.advance := by
  rw [endStatement, sees_of_tokens hs, if_pos hc]

theorem isBlockEnd_of_end (h : e.is Code.endWord = true) : isBlockEnd e = true := by
  simp [isBlockEnd, h]

theorem is_eq_false_of_isBlockEnd (h : isBlockEnd e = true) (hend : Code.endWord ≠ code)
    (hdot : Code.dot ≠ code) : e.is code = false := by
  rcases Bool.or_eq_true_iff.1 h with h | h
  · exact Token.is_eq_false h hend
  · exact Token.is_eq_false h hdot

theorem endStatement_end {s : Reader} (hs : s.tokens = e :: ts) (he : isBlockEnd e = true) :
    s.endStatement = s := by
  have hc : e.is Code.semicolon = false := is_eq_false_of_isBlockEnd he (by decide) (by decide)
  have hend : (e.is Code.endWord || e.is Code.dot) = true := he
  simp [endStatement, sees_of_tokens hs, hc, hend]

theorem statements_end {s : Reader} (hs : s.tokens = e :: ts) (he : isBlockEnd e = true) :
    statements s = ([], s) := by
  apply statements_stop
  intro t ht
  obtain rfl : e = t := by simpa [here?_of_tokens hs] using ht
  exact he

/-- Where a statement that is no block stands, its reading comes first. -/
theorem statements_of_simple {s : Reader} (hs : s.tokens = t :: ts)
    (hend : t.is Code.endWord = false) (hdot : t.is Code.dot = false)
    (hb : t.is Code.beginWord = false) (h : (simpleStatement t s).2 = s') :
    (statements s).2 = (statements s').2 := by
  rw [statements_simple (here?_of_tokens hs) (by simp [isBlockEnd, hend, hdot]) hb, h]

def Unextended (vs : List Token) : Prop := ∀ t ∈ vs.head?, t.is Code.leftParen = false

def BeforeEnd (vs : List Token) : Prop := ∃ e us, vs = e :: us ∧ isBlockEnd e = true

def Ended (vs : List Token) : Prop :=
  ∃ e us, vs = e :: us ∧ (e.is Code.semicolon = true ∨ isBlockEnd e = true)

theorem BeforeEnd.ended (h : BeforeEnd vs) : Ended vs := by
  obtain ⟨e, us, hvs, he⟩ := h
  exact ⟨e, us, hvs, .inr he⟩

theorem beforeEnd_cons (he : e.is Code.endWord = true) : BeforeEnd (e :: us) :=
  ⟨e, us, rfl, isBlockEnd_of_end he⟩

theorem ended_cons (hc : c.is Code.semicolon = true) : Ended (c :: us) := ⟨c, us, rfl, .inl hc⟩

theorem Ended.unextended (h : Ended vs) : Unextended vs := by
  obtain ⟨e, us, rfl, he⟩ := h
  intro t ht
  obtain rfl : e = t := by simpa using ht
  rcases he with he | he
  · exact Token.is_eq_false he (by decide)
  · exact is_eq_false_of_isBlockEnd he (by decide) (by decide)

/-- The tokens are read as a statement that logs the events, in front of tokens that fit. -/
def ReadsStatement (Fits : List Token → Prop) (xs : List Token) (es : List Event) : Prop :=
  ∀ s vs, Sound s → s.tokens = xs ++ vs → Fits vs →
    ∃ s₁ : Reader, Took s xs es s₁ ∧ (statements s).2 = (statements s₁.endStatement).2

def ReadsStatements (xs : List Token) (es : List Event) : Prop :=
  ∀ s vs, Sound s → s.tokens = xs ++ vs → BeforeEnd vs → Took s xs es (statements s).2

theorem ReadsStatement.ended (h : ReadsStatement Unextended xs es) : ReadsStatement Ended xs es :=
  fun s vs hsound hs hf => h s vs hsound hs hf.unextended

theorem readsStatement_assign (hk : t.kind = .ident) (ha : a.is Code.assign = true)
    (he : Expression ts us) :
    ∃ xs es, ts = xs ++ us ∧ (∀ e ∈ es, e.isNameCheck = true) ∧
      ReadsStatement Unextended (t :: a :: xs) es := by
  obtain ⟨xs, rfl, hread⟩ := assignment_complete he
  obtain ⟨es, hes, hread⟩ := hread ⟨t, t.lexeme⟩
  refine ⟨xs, es, rfl, hes, ?_⟩
  intro s vs hsound hs _
  have hcoherent := hsound.coherent_of_tokens hs
  have hp := Took.advance hsound hs
  obtain ⟨s₁, hx, hp'⟩ := hread s.advance vs a hp.sound (hp.rest_eq hs) ha
  refine ⟨s₁, hp.trans hp', ?_⟩
  refine statements_of_simple hs (hcoherent.is_eq_false_of_ident hk (by decide))
    (hcoherent.is_eq_false_of_ident hk (by decide))
    (hcoherent.is_eq_false_of_ident hk (by decide)) ?_
  rw [simpleStatement, hcoherent.is_eq_false_of_ident hk (by decide), if_neg (by decide),
    if_pos hk, hx]

theorem readsStatement_output (hw : w.is Code.writelnWord = true) (ho : Output ts us) :
    ∃ xs es, ts = xs ++ us ∧ (∀ e ∈ es, e.isNameCheck = true) ∧
      ReadsStatement Unextended (w :: xs) es := by
  obtain ⟨xs, es, rfl, hes, hread⟩ := output_complete ho
  refine ⟨xs, es, rfl, hes, ?_⟩
  intro s vs hsound hs hf
  have hcoherent := hsound.coherent_of_tokens hs
  have hp := Took.advance hsound hs
  obtain ⟨s₁, hx, hp'⟩ := hread s.advance vs w hp.sound (hp.rest_eq hs) hf
  refine ⟨s₁, hp.trans hp', ?_⟩
  refine statements_of_simple hs (Token.is_eq_false hw (by decide))
    (Token.is_eq_false hw (by decide)) (Token.is_eq_false hw (by decide)) ?_
  rw [simpleStatement, Token.is_eq_false hw (by decide), if_neg (by decide),
    if_neg (hcoherent.kind_ne_ident hw (by decide)), if_pos hw, hx]

theorem ReadsStatements.block (h : ReadsStatements xs es) (hb : b.is Code.beginWord = true)
    (he : e.is Code.endWord = true) (F : List Token → Prop) :
    ReadsStatement F (b :: (xs ++ [e])) es := by
  intro s vs hsound hs _
  have hp := Took.advance hsound hs
  have hs' : s.advance.tokens = xs ++ e :: vs := by simpa using hp.rest_eq hs
  have hi := h s.advance (e :: vs) hp.sound hs' (beforeEnd_cons he)
  have hclose : (statements s.advance).2.closeBlock = (statements s.advance).2.advance := by
    rw [closeBlock, sees_of_tokens (hi.rest_eq hs'), if_pos he]
  refine ⟨_, hp.trans (hi.take (hi.rest_eq hs')), ?_⟩
  rw [statements_block (here?_of_tokens hs) hb, hclose]

theorem readsStatements_nil : ReadsStatements [] [] := by
  intro s vs hsound hs ⟨e, us, hvs, he⟩
  rw [statements_end (hs.trans hvs) he]
  exact .refl hsound

theorem ReadsStatements.empty (h : ReadsStatements xs es) (hc : c.is Code.semicolon = true) :
    ReadsStatements (c :: xs) es := by
  intro s vs hsound hs hf
  have hp := Took.advance hsound hs
  have hskip := statements_of_simple hs (Token.is_eq_false hc (by decide))
    (Token.is_eq_false hc (by decide)) (Token.is_eq_false hc (by decide))
    (by rw [simpleStatement, if_pos hc])
  rw [hskip]
  exact hp.trans (h s.advance vs hp.sound (hp.rest_eq hs) hf)

theorem ReadsStatement.last (h : ReadsStatement Ended xs es) : ReadsStatements xs es := by
  intro s vs hsound hs hf
  obtain ⟨s₁, hp, hx⟩ := h s vs hsound hs hf.ended
  obtain ⟨e, us, rfl, he⟩ := hf
  have hs₁ := hp.rest_eq hs
  rw [hx, endStatement_end hs₁ he, statements_end hs₁ he]
  exact hp

theorem ReadsStatement.cons (h : ReadsStatement Ended xs es) (hc : c.is Code.semicolon = true)
    (k : ReadsStatements ys fs) : ReadsStatements (xs ++ c :: ys) (es ++ fs) := by
  intro s vs hsound hs hf
  have hs' : s.tokens = xs ++ c :: (ys ++ vs) := by simpa using hs
  obtain ⟨s₁, hp, hx⟩ := h s _ hsound hs' (ended_cons hc)
  have ha := Took.advance hp.sound (hp.rest_eq hs')
  have hi := k s₁.advance vs ha.sound (ha.rest_eq (hp.rest_eq hs')) hf
  rw [hx, endStatement_semicolon (hp.rest_eq hs') hc]
  exact hp.trans (ha.trans hi)

mutual

/-- A statement is read without a report, wherever its tokens stand. -/
theorem statement_complete (h : Statement ts us) :
    ∃ xs es, ts = xs ++ us ∧ (∀ e ∈ es, e.isNameCheck = true) ∧
      ReadsStatement Unextended xs es :=
  match h with
  | @Statement.assign _ _ t a hk ha he => by
    obtain ⟨xs, es, rfl, hes, hread⟩ := readsStatement_assign hk ha he
    exact ⟨t :: a :: xs, es, rfl, hes, hread⟩
  | @Statement.output _ _ w hw ho => by
    obtain ⟨xs, es, rfl, hes, hread⟩ := readsStatement_output hw ho
    exact ⟨w :: xs, es, rfl, hes, hread⟩
  | @Statement.block _ e _ b hb hinner he => by
    obtain ⟨xs, es, rfl, hes, hread⟩ := statements_complete hinner
    exact ⟨b :: (xs ++ [e]), es, by simp, hes, hread.block hb he _⟩

/-- Statements are read without a report, wherever their tokens stand. -/
theorem statements_complete (h : Statements ts us) :
    ∃ xs es, ts = xs ++ us ∧ (∀ e ∈ es, e.isNameCheck = true) ∧ ReadsStatements xs es :=
  match h with
  | .nil => ⟨[], [], rfl, by simp, readsStatements_nil⟩
  | @Statements.empty c _ _ hc hrest => by
    obtain ⟨xs, es, rfl, hes, hread⟩ := statements_complete hrest
    exact ⟨_, es, rfl, hes, hread.empty hc⟩
  | .last hst => by
    obtain ⟨xs, es, rfl, hes, hread⟩ := statement_complete hst
    exact ⟨xs, es, rfl, hes, hread.ended.last⟩
  | @Statements.cons _ c _ _ hst hc hrest => by
    obtain ⟨xs, es, rfl, hes, hread⟩ := statement_complete hst
    obtain ⟨ys, fs, rfl, hfs, hread'⟩ := statements_complete hrest
    refine ⟨xs ++ c :: ys, es ++ fs, by simp, ?_, hread.ended.cons hc hread'⟩
    intro f hf
    exact (List.mem_append.1 hf).elim (hes f) (hfs f)

end

theorem block_complete {s : Reader} (h : Grammar.Block ts us) (hs : s.tokens = ts)
    (hsound : s.Sound) : Passes s s.block.2 us := by
  obtain ⟨hb, hinner, he⟩ := h
  obtain ⟨xs, es, rfl, hes, hread⟩ := statements_complete hinner
  have hp := Took.advance hsound hs
  have hi := hread _ _ hp.sound (hp.rest_eq hs) (beforeEnd_cons he)
  have hend := hi.rest_eq (hp.rest_eq hs)
  have hall := hp.trans (hi.take hend)
  have hopen : s.openBody = s.advance := by rw [openBody, sees_of_tokens hs, if_pos hb]
  rw [block_eq, hopen, closeBlock, sees_of_tokens hend, if_pos he, ← tokens_advance_of hend]
  refine hall.passes hsound ?_
  intro c n hmem
  cases hes _ hmem

theorem header_complete {s : Reader} (h : Heading ts us) (hs : s.tokens = ts)
    (hf : ∀ t ∈ us.head?, t.is Code.programWord = false) : Passes s s.header.2 us := by
  cases h with
  | none =>
    have hp : s.sees Code.programWord = false := by
      apply sees_eq_false
      rw [hs]
      exact hf
    rw [header, hp]
    exact ⟨hs, id⟩
  | named hp hk hc =>
    have ha := Passes.advance hs
    have ha' := Passes.advance ha.tokens_eq
    rw [header, sees_of_tokens hs, if_pos hp, here?_of_tokens ha.tokens_eq]
    simp only [hk, if_true]
    exact ha.trans (ha'.trans (.expectSemicolon ha'.tokens_eq hc))

theorem terminator_complete {s : Reader} (hs : s.tokens = [d]) (hd : d.is Code.dot = true) :
    Passes s s.terminator [] := by
  have he : Passes s (s.emit .balance) [d] := by
    rw [← hs]
    exact .emit s (by simp)
  have ha := Passes.advance he.tokens_eq
  rw [terminator, sees_of_tokens hs, if_pos hd]
  dsimp only
  rw [if_pos (atEnd_iff.2 ha.tokens_eq)]
  exact he.trans ha

theorem declared_complete {s : Reader} (hh : Heading s.tokens ts)
    (hdecls : Declarations NestedHeader ts us) (hblock : Grammar.Block us vs) (hsound : s.Sound) :
    Passes s s.declared us := by
  obtain ⟨b, us', hb, hbegin⟩ := hblock.head
  have h₁ := header_complete hh rfl fun t ht =>
    Token.is_eq_false_of_code_ne (hdecls.head (by simp [hb, hbegin]) (by decide) t ht)
  have hsound₁ := (reads_header s).sound hsound
  exact h₁.trans (declarations_complete hdecls h₁.tokens_eq hsound₁ hb hbegin)

theorem program_complete {s : Reader} (h : Grammar.Program NestedHeader s.tokens)
    (hsound : s.Sound) : Passes s s.program.2 [] := by
  obtain ⟨hh, hdecls, hblock, hdot⟩ := h
  have h₁ := declared_complete hh hdecls hblock hsound
  have h₂ := h₁.trans (block_complete hblock h₁.tokens_eq ((reads_declared s).sound hsound))
  exact h₂.trans (terminator_complete h₂.tokens_eq hdot)

/-- Nothing is reported exactly for programs. -/
theorem clean_program_iff {s : Reader} (hsound : s.Sound) (hs : s.Clean) :
    s.program.2.Clean ↔ Grammar.Program NestedHeader s.tokens :=
  ⟨program_sound hsound, fun h => (program_complete h hsound).clean hs⟩

end PascalCheck.Reader
