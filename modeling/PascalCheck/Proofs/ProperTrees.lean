import PascalCheck.Proofs.DeclaredNames
import PascalCheck.Proofs.Printing
import PascalCheck.Proofs.Silence

namespace PascalCheck
set_option autoImplicit true

namespace Reader

/-- The tokens ahead are accepted, and so is every literal that is checked. -/
structure Accepting (s : Reader) : Prop where
  sound : s.Sound
  tokens : ∀ t ∈ s.tokens, t.Accepted
  literals : ∀ l n, .literal l n ∈ s.story → l.check.causes = []

/-- An event that checks no literal for the first time. -/
def Repeating (s : Reader) (e : Event) : Prop := ∀ l n, e = .literal l n → e ∈ s.story

theorem Complaint.repeating (h : Complaint s e) : Repeating s e := by
  cases h <;> exact fun _ _ he => Event.noConfusion he

theorem Declaring.repeating (h : Declaring s e) : Repeating s e := by
  cases h with
  | complaint h => exact h.repeating
  | declare symbol => exact fun _ _ he => Event.noConfusion he

theorem Checking.repeating (h : Checking s e) : Repeating s e := by
  cases h with
  | complaint h => exact h.repeating
  | literal h => exact fun _ _ _ => List.mem_append_left _ h
  | _ => exact fun _ _ he => Event.noConfusion he

namespace Accepting

theorem reads (h : Accepting s) (hr : Reads P s s') (hP : ∀ u e, P u e → Repeating u e) :
    s'.Accepting := by
  refine ⟨hr.sound h.sound, fun t ht => h.tokens t (hr.tokens_suffix.subset ht), ?_⟩
  refine hr.invariant (I := fun u => ∀ l n, .literal l n ∈ u.story → l.check.causes = [])
    h.literals ?_ ?_
  · intro u t ht hu l n hl
    rw [story_advance ht] at hl
    exact hu l n hl
  · intro u e he hu l n hl
    rcases mem_story_emit.1 hl with rfl | hl
    · exact hu l n (hP u _ he l n rfl)
    · exact hu l n hl

theorem complaining (h : Accepting s) (hr : Reads Complaint s s') : s'.Accepting :=
  h.reads hr fun _ _ => Complaint.repeating

theorem checking (h : Accepting s) (hr : Reads Checking s s') : s'.Accepting :=
  h.reads hr fun _ _ => Checking.repeating

theorem declaring (h : Accepting s) (hr : Reads Declaring s s') : s'.Accepting :=
  h.reads hr fun _ _ => Declaring.repeating

theorem advance (h : Accepting s) : s.advance.Accepting := by
  refine ⟨h.sound.advance, ?_, ?_⟩
  · intro t ht
    rw [tokens_advance] at ht
    exact h.tokens t (List.mem_of_mem_tail ht)
  · intro l n hl
    rcases mem_story_advance hl with he | hl
    · cases he
    · exact h.literals l n hl

theorem accepted (h : Accepting s) (hs : s.here? = some t) : t.Accepted :=
  h.tokens t (by rw [tokens_of_here? hs]; exact List.mem_cons_self)

theorem inRange (h : Accepting s) (hs : s.here? = some t) (hk : t.kind = .number) :
    (t.literal s.afterMinus).check.causes = [] :=
  h.literals _ _ (List.mem_append_left _ (h.sound.literal_seen hs hk))

end Accepting

/-- An expression of an accepted source is proper, as long as no minus stands right before it. -/
theorem YieldsExpr.proper (h : YieldsExpr s e s') (hs : Accepting s)
    (hm : s.afterMinus = false) : e.Proper := by
  induction h with
  | signed hsign _ ht hk =>
    have hrange := hs.advance.inRange ht hk
    rw [afterMinus_advance hsign] at hrange
    exact .number _ (hs.advance.accepted ht) hk hrange
  | number ht hk =>
    have hrange := hs.inRange ht hk
    rw [hm] at hrange
    exact .number false (hs.accepted ht) hk hrange
  | name ht hk => exact .ident ⟨hs.accepted ht, hk, rfl⟩
  | paren ht hl _ _ ih =>
    have hm' := afterMinus_advance ht
    rw [Token.is_eq_false hl (by decide)] at hm'
    exact .paren (ih hs.advance hm')

theorem YieldsArguments.proper (h : YieldsArguments s es s') (hs : Accepting s)
    (hm : s.afterMinus = false) : ∀ e ∈ es, e.Proper := by
  induction h with
  | last he => exact List.forall_mem_singleton.2 ((yieldsExpr he).proper hs hm)
  | cons he hc _ ih =>
    have hs' := (hs.checking (reads_argument hs.sound hm he)).advance
    have hmore := ih hs' (afterMinus_advance_of_sees hc (by decide))
    exact List.forall_mem_cons.2 ⟨(yieldsExpr he).proper hs hm, hmore⟩

theorem proper_assignment (hs : Accepting s) (ht : t.Accepted) (hk : t.kind = .ident)
    (h : (assignment ⟨t, t.lexeme⟩ s).1 = some st) : st.Proper := by
  unfold assignment at h
  split at h
  · cases h
  · rename_i a ha
    split at h
    · rename_i hassign
      have hm : s.advance.afterMinus = false := by
        rw [afterMinus_advance ha]
        exact Token.is_eq_false hassign (by decide)
      split at h
      · cases h
      · rename_i value s' he
        cases h
        exact .assign ⟨ht, hk, rfl⟩ ((yieldsExpr he).proper hs.advance hm)
    · cases h

theorem proper_output (hs : Accepting s) (w : Token) (h : (output w s).1 = some st) :
    st.Proper := by
  have hempty : (Stmt.writeln w []).Proper := .writeln (by simp)
  unfold output at h
  split at h
  · rename_i hleft
    split at h
    · cases h
      exact hempty
    · split at h
      · cases h
      · rename_i args s' ha
        split at h
        · cases h
          have hm := afterMinus_advance_of_sees hleft (by decide)
          exact .writeln ((yieldsArguments ha).proper hs.advance hm)
        · cases h
  · cases h
    exact hempty

theorem proper_simpleStatement (hs : Accepting s) (ht : s.here? = some t)
    (h : (simpleStatement t s).1 = some st) : st.Proper := by
  unfold simpleStatement at h
  split at h
  · cases h
  split at h
  · rename_i hk
    exact proper_assignment hs.advance (hs.accepted ht) hk h
  split at h
  · exact proper_output hs.advance t h
  · cases h

theorem proper_statements (hs : Accepting s) : ∀ st ∈ (statements s).1, st.Proper := by
  induction s using statements_induction with
  | stop s h =>
    rw [statements_stop h]
    simp
  | block s t h hb ihin ihout =>
    rw [statements_block h hb]
    have hinner := hs.advance.checking (reads_statements hs.advance.sound)
    have hclosed := hinner.complaining ((reads_closeBlock _).trans (reads_endStatement _))
    exact List.forall_mem_cons.2 ⟨.block (ihin hs.advance), ihout hclosed⟩
  | simple s t h he hb ih =>
    rw [statements_simple h he hb]
    refine List.forall_mem_append.2 ⟨?_, ih (hs.checking (reads_simpleStatement hs.sound h))⟩
    intro st hst
    exact proper_simpleStatement hs h (Option.mem_toList.1 hst)

theorem isTyped_of_ofCode? (h : ValueType.ofCode? code = some type) :
    type = .integer ∨ type = .real := by
  rcases ofCode?_eq_some h with rfl | rfl
  · exact .inl (Option.some.inj h.symm)
  · exact .inr (Option.some.inj h.symm)

theorem YieldsType.isTyped (h : YieldsType s type s') : type = .integer ∨ type = .real := by
  obtain ⟨-, -, -, hcode⟩ := h
  exact isTyped_of_ofCode? hcode

theorem proper_variableLine (hs : Accepting s) : ∀ d ∈ (variableLine s).1, d.Proper := by
  unfold variableLine
  split
  · simp
  · rename_i xs s₁ hn
    split
    · simp
    · rename_i type s₂ ha
      obtain ⟨⟨ts, hts, hsub⟩, hkind⟩ := (yieldsNames hn).taken
      intro d hd
      obtain ⟨x, hx, rfl⟩ := List.mem_map.1 hd
      have hmem : x ∈ s.tokens := by
        rw [hts]
        exact List.mem_append_left _ (hsub.subset hx)
      exact ⟨hs.tokens x hmem, hkind x hx, rfl, (yieldsType ha).isTyped⟩

theorem proper_variableSection (hs : Accepting s) : ∀ d ∈ (variableSection s).1, d.Proper := by
  fun_induction variableSection s with
  | case1 s h line more ih =>
    exact List.forall_mem_append.2
      ⟨proper_variableLine hs, ih (hs.declaring (reads_variableLine s))⟩
  | case2 => simp

theorem proper_declarations (hs : Accepting s) : ∀ d ∈ (declarations s).1.1, d.Proper := by
  fun_induction declarations s with
  | case1 s h => simp
  | case2 s t h hv vars more ih =>
    exact List.forall_mem_append.2 ⟨proper_variableSection hs.advance,
      ih (hs.advance.declaring (reads_variableSection _))⟩
  | case3 s t h hv hr first more ih => exact ih (hs.advance.declaring (reads_routine t _))
  | case4 s t h hv hr => simp

theorem proper_header (hs : Accepting s) :
    s.header.1 = "" ∨ ∃ t : Token, t.Accepted ∧ t.kind = .ident ∧ s.header.1 = t.lexeme := by
  unfold header
  split
  · split
    · exact .inl rfl
    · rename_i t ht
      split
      · rename_i hk
        exact .inr ⟨t, hs.advance.accepted ht, hk, rfl⟩
      · exact .inl rfl
  · exact .inl rfl

theorem proper_program (hs : Accepting s) : s.program.1.Proper := by
  have hheader := hs.complaining (reads_header s)
  have hdeclared := hs.declaring (reads_declared s)
  have hopen := hdeclared.complaining (reads_openBody s.declared)
  exact ⟨proper_header hs, proper_declarations hheader, _, rfl, proper_statements hopen⟩

end Reader

theorem reports_start_of_ok (h : (analyze source o).ok = true)
    (he : e ∈ (Reader.ofScan (Scan.ofBytes source)).story) : ∃ r : Run, r.reports e = [] := by
  obtain ⟨before, after, htrace⟩ := List.append_of_mem (mem_trace_of_mem_start he)
  exact ⟨_, reports_of_ok h htrace⟩

theorem cause?_of_ok (h : (analyze source o).ok = true) (ht : t ∈ (Scan.ofBytes source).tokens) :
    t.cause? = none := by
  have hstart : Event.scanned t ∈ (Reader.ofScan (Scan.ofBytes source)).story := by
    rw [Reader.story_ofScan]
    exact List.mem_append_left _ (mem_readEvents_scanned.2 ht)
  obtain ⟨r, hr⟩ := reports_start_of_ok h hstart
  exact Run.cause?_of_reports_eq_nil hr

theorem accepting_of_ok (h : (analyze source o).ok = true) :
    (Reader.ofScan (Scan.ofBytes source)).Accepting := by
  refine ⟨Reader.sound_ofScan source, ?_, ?_⟩
  · intro t ht
    rw [Reader.tokens_ofScan] at ht
    have hmem := (List.mem_filter.1 ht).1
    exact ⟨Scan.exists_read_of_mem hmem, cause?_of_ok h hmem⟩
  · intro l n hl
    obtain ⟨r, hr⟩ := reports_start_of_ok h hl
    exact List.map_eq_nil_iff.1 hr

theorem proper_of_ok (h : (analyze source o).ok = true) : (analyze source o).program.Proper := by
  rw [program_analyze]
  exact Reader.proper_program (accepting_of_ok h)

end PascalCheck
