import PascalCheck.Proofs.Grammar.Bodies
import PascalCheck.Proofs.Reader.Sound
import PascalCheck.Proofs.Reader.Yields

namespace PascalCheck.Grammar
set_option autoImplicit true

theorem Names.head (h : Names ts us) : ∃ t vs, ts = t :: vs ∧ t.kind = .ident := by
  cases h with
  | last hk => exact ⟨_, _, rfl, hk⟩
  | cons hk hc h => exact ⟨_, _, rfl, hk⟩

theorem Typed.head (h : Typed ts us) : ∀ c ∈ ts.head?, c.kind = .colon := by
  obtain ⟨hc, -, -⟩ := h
  intro c' hc'
  obtain rfl : _ = c' := by simpa using hc'
  exact hc

theorem Groups.head (h : Groups ts us) :
    ∃ t vs, ts = t :: vs ∧ (t.kind = .ident ∨ t.is Code.varWord = true) := by
  have hmarked {ts us vs : List Token} (hm : Marked ts us) (hn : Names us vs) :
      ∃ t vs, ts = t :: vs ∧ (t.kind = .ident ∨ t.is Code.varWord = true) := by
    cases hm with
    | plain =>
      obtain ⟨t, vs, hts, hk⟩ := hn.head
      exact ⟨t, vs, hts, .inl hk⟩
    | marked hv => exact ⟨_, _, rfl, .inr hv⟩
  cases h with
  | last hm hn => exact hmarked hm hn
  | cons hm hn => exact hmarked hm hn

theorem Declarations.head {code : Int} (h : Declarations H ts us)
    (hb : ∀ t ∈ us.head?, t.is Code.beginWord = true)
    (hcode : code ∉ [Code.varWord, Code.functionWord, Code.procedureWord, Code.beginWord]) :
    ∀ t ∈ ts.head?, t.code ≠ code := by
  have hword {w : Token} {vs : List Token} {word : Int} (hw : w.is word = true)
      (hne : code ≠ word) : ∀ t ∈ (w :: vs).head?, t.code ≠ code := by
    intro t ht
    obtain rfl : w = t := by simpa using ht
    rw [Token.code_of_is hw]
    exact hne.symm
  simp only [List.mem_cons, not_or] at hcode
  obtain ⟨hvar, hfunction, hprocedure, hbegin, -⟩ := hcode
  cases h with
  | nil =>
    intro t ht
    rw [Token.code_of_is (hb t ht)]
    exact Ne.symm hbegin
  | vars hv => exact hword hv hvar
  | routine hr =>
    cases hr with
    | function hw => exact hword hw hfunction
    | procedure hw => exact hword hw hprocedure

end PascalCheck.Grammar

namespace PascalCheck.Reader
set_option autoImplicit true
open Grammar

theorem YieldsNames.sound (h : YieldsNames s xs s') : Names s.tokens s'.tokens := by
  induction h with
  | last hs hk =>
    rw [tokens_of_here? hs]
    exact .last hk
  | cons hs hk hc _ ih =>
    obtain ⟨c, us, hs', hcomma⟩ := sees_iff.1 hc
    rw [tokens_advance_of hs'] at ih
    rw [tokens_of_here? hs, hs']
    exact .cons hk hcomma ih

theorem names_not_clean (h : names s = (none, s')) : ¬ s'.Clean := by
  fun_induction names s generalizing s' with
  | case1 s hs =>
    cases h
    exact not_clean_unexpected _ _
  | case2 s t hs hk hc u hn ih =>
    cases h
    exact ih hn
  | case3 s t hs hk hc ts u hn ih => cases h
  | case4 s t hs hk hc => cases h
  | case5 s t hs hk =>
    cases h
    exact not_clean_unexpected _ _

theorem ofCode?_eq_some (h : ValueType.ofCode? code = some type) :
    code = Code.integerWord ∨ code = Code.realWord := by
  unfold ValueType.ofCode? at h
  split at h
  · exact .inl ‹_›
  split at h
  · exact .inr ‹_›
  · cases h

theorem YieldsType.sound (h : YieldsType s type s') : Typed s.tokens s'.tokens := by
  obtain ⟨hc, ht, hkey, htype⟩ := h
  obtain ⟨c, ts, hs, hk⟩ := seesKind_iff.1 hc
  rw [hs, ← tokens_advance_of hs, tokens_of_here? ht]
  exact .mk hk hkey (ofCode?_eq_some htype)

theorem typeAnnotation_not_clean {s : Reader} (h : s.typeAnnotation = (none, s')) :
    ¬ s'.Clean := by
  unfold typeAnnotation at h
  split at h
  · unfold typeName at h
    split at h
    · cases h
      exact not_clean_unexpected _ _
    split at h
    · split at h
      · cases h
      · cases h
        exact not_clean_unexpected _ _
    · cases h
      exact not_clean_unexpected _ _
  · cases h
    exact not_clean_unexpected _ _

theorem tokens_declareAll (s : Reader) (symbols : List Symbol) :
    (s.declareAll symbols).tokens = s.tokens := by
  induction symbols generalizing s with
  | nil => rfl
  | cons symbol symbols ih => exact ih _

theorem variableLine_sound (h : (variableLine s).2.Clean) :
    ∃ ts c, Names s.tokens ts ∧ Typed ts (c :: (variableLine s).2.tokens) ∧
      c.is Code.semicolon = true := by
  unfold variableLine at h ⊢
  split at h
  · rename_i s₁ hn
    exact absurd ((reads_synchronize (P := Complaint) s₁).clean h) (names_not_clean hn)
  · rename_i xs s₁ hn
    dsimp only at h ⊢
    split at h
    · rename_i s₂ ha
      exact absurd ((reads_synchronize (P := Complaint) s₂).clean h) (typeAnnotation_not_clean ha)
    · rename_i type s₂ ha
      obtain ⟨c, hs, hc⟩ := expectSemicolon_sound h
      rw [tokens_declareAll] at hs
      refine ⟨s₁.tokens, c, (yieldsNames hn).sound, ?_, hc⟩
      rw [← hs]
      exact (yieldsType ha).sound

theorem variableSection_sound (h : (variableSection s).2.Clean) :
    Variables s.tokens (variableSection s).2.tokens := by
  fun_induction variableSection s with
  | case1 s hs line more ih =>
    obtain ⟨ts, c, hn, ht, hc⟩ := variableLine_sound ((reads_variableSection _).clean h)
    exact .cons hn ht hc (ih h)
  | case2 s hs => exact .nil

theorem marked_accept (s : Reader) : Marked s.tokens (s.accept Code.varWord).tokens := by
  unfold accept
  split
  · rename_i hv
    obtain ⟨v, ts, hs, hvar⟩ := sees_iff.1 hv
    rw [tokens_advance_of hs, hs]
    exact .marked hvar
  · exact .plain

theorem paramGroups_sound (h : (paramGroups s).2.2.Clean) :
    (paramGroups s).2.1 = true ∧ Groups s.tokens (paramGroups s).2.2.tokens := by
  fun_induction paramGroups s with
  | case1 s t hn => exact absurd h (names_not_clean hn)
  | case2 s ts t hn u ha => exact absurd h (typeAnnotation_not_clean ha)
  | case3 s ts t hn type u ha group hc more complete s' hp ih =>
    obtain ⟨c, us, hu, hsemi⟩ := sees_iff.1 hc
    rw [hp] at ih
    obtain ⟨hcomplete, hgroups⟩ := ih h
    have ht := (yieldsType ha).sound
    rw [hu] at ht
    rw [tokens_advance_of hu] at hgroups
    exact ⟨hcomplete, .cons (marked_accept s) (yieldsNames hn).sound ht hsemi hgroups⟩
  | case4 s ts t hn type u ha group hc hp =>
    obtain ⟨c, us, hu, hparen⟩ := sees_iff.1 hp
    have ht := (yieldsType ha).sound
    rw [hu] at ht
    rw [tokens_advance_of hu]
    exact ⟨rfl, .last (marked_accept s) (yieldsNames hn).sound ht hparen⟩
  | case5 s ts t hn type u ha group hc hp => exact absurd h (not_clean_unexpected _ _)

theorem params_sound (h : (params s).2.Clean) : Params s.tokens (params s).2.tokens := by
  unfold params at h ⊢
  split
  · rename_i hl
    obtain ⟨l, ts, hs, hleft⟩ := sees_iff.1 hl
    rw [if_pos hl] at h
    split
    · rename_i hr
      obtain ⟨r, us, hs', hright⟩ := sees_iff.1 hr
      rw [tokens_advance_of hs', hs, ← tokens_advance_of hs, hs']
      exact .empty hleft hright
    · rename_i hr
      rw [if_neg hr] at h
      split
      · rename_i ps t hg
        have hgroups := paramGroups_sound (s := s.advance)
        rw [hg] at h hgroups
        have hgroups := (hgroups h).2
        rw [tokens_advance_of hs] at hgroups
        rw [hs]
        exact .groups hleft hgroups
      · rename_i ps t hg
        have hgroups := paramGroups_sound (s := s.advance)
        rw [hg] at h hgroups
        have ht : t.Clean :=
          ((reads_skipWhile (P := Complaint) _ t).trans (reads_accept _ _)).clean h
        exact absurd (hgroups ht).1 Bool.false_ne_true
  · exact .none

theorem prev_expectSemicolon {s : Reader} (hs : s.tokens = c :: ts)
    (hc : c.is Code.semicolon = true) : s.expectSemicolon.prev = some c := by
  rw [expectSemicolon, sees_of_tokens hs, if_pos hc]
  exact prev_advance (here?_of_tokens hs)

theorem skipBodyIfThere_of_semicolon {s : Reader} (hp : s.prev = some c)
    (hc : c.is Code.semicolon = true) : s.skipBodyIfThere = s.skipBody := by
  have hb : s.atBody = true := by simp [atBody, hp, hc]
  rw [skipBodyIfThere, if_pos hb]

theorem resultType_sound (h : (resultType true s).2.Clean) :
    Typed s.tokens (resultType true s).2.tokens := by
  have ha : (resultType true s).2 = s.typeAnnotation.2 := rfl
  rw [ha] at h ⊢
  obtain ⟨type?, s', hs⟩ : ∃ type? s', s.typeAnnotation = (type?, s') := ⟨_, _, rfl⟩
  rw [hs] at h ⊢
  cases type? with
  | none => exact absurd h (typeAnnotation_not_clean hs)
  | some type => exact (yieldsType hs).sound

theorem namedRoutine_sound (hw : IsRoutineWord w) (hk : n.kind = .ident)
    (h : (namedRoutine w n s).2.Clean) :
    (namedRoutine w n s).2.tokens = [] ∨
      Grammar.Routine NestedHeader (w :: n :: s.tokens) (namedRoutine w n s).2.tokens := by
  rw [namedRoutine_eq, headerEnd] at h ⊢
  have hsemi := (reads_skipBodyIfThere _).clean h
  obtain ⟨c, hs, hc⟩ := expectSemicolon_sound hsemi
  rw [skipBodyIfThere_of_semicolon (prev_expectSemicolon hs hc) hc] at h ⊢
  rw [tokens_emit] at hs
  have hresult : (resultType (w.is Code.functionWord) s.params.2).2.Clean :=
    ((Reads.event (.declare _)).trans (reads_expectSemicolon _).declaring).clean hsemi
  have hparams := params_sound ((reads_resultType _ _).clean hresult)
  refine (skipBody_sound h).imp id fun hbody => ?_
  rcases hw with hw | hw
  · rw [hw] at hs hresult hbody ⊢
    have ht := resultType_sound hresult
    rw [hs] at ht
    exact .function hw hk hparams ht hc hbody
  · have hf : w.is Code.functionWord = false := Token.is_eq_false hw (by decide)
    rw [hf] at hs hbody ⊢
    have hr : (resultType false s.params.2).2 = s.params.2 := rfl
    rw [hr] at hs
    rw [hs] at hparams
    exact .procedure hw hk hparams hc hbody

theorem routine_sound (hw : IsRoutineWord w) (h : (routine w s).2.Clean) :
    (routine w s).2.tokens = [] ∨
      Grammar.Routine NestedHeader (w :: s.tokens) (routine w s).2.tokens := by
  have hfail : ¬ (s.unexpected .routineName).synchronize.skipBodyIfThere.Clean :=
    Reads.not_clean ((reads_synchronize _).trans (reads_skipBodyIfThere _))
  unfold routine at h ⊢
  split
  · rename_i hs
    rw [hs] at h
    exact absurd h hfail
  · rename_i t ht
    rw [ht] at h
    dsimp only at h ⊢
    split
    · rename_i hk
      rw [if_pos hk] at h
      rw [tokens_of_here? ht]
      exact namedRoutine_sound hw hk h
    · rename_i hk
      rw [if_neg hk] at h
      exact absurd h hfail

/-- Where nothing is reported in declarations, they are as the grammar has them, or a body runs to
the end of the input. -/
theorem declarations_sound (h : (declarations s).2.Clean) :
    (declarations s).2.tokens = [] ∨
      Declarations NestedHeader s.tokens (declarations s).2.tokens := by
  fun_induction declarations s with
  | case1 s hs => exact .inr .nil
  | case2 s t hs hv vars more ih =>
    have hvars := variableSection_sound ((reads_declarations _).clean h)
    rw [tokens_of_here? hs]
    exact (ih h).imp id fun hi => .vars hv hvars hi
  | case3 s t hs hv hr first more ih =>
    have hw : IsRoutineWord t := by simpa [IsRoutineWord] using hr
    rw [tokens_of_here? hs]
    rcases routine_sound hw ((reads_declarations _).clean h) with hnil | hroutine
    · have hsuffix := (reads_declarations first.2).tokens_suffix
      rw [hnil] at hsuffix
      exact .inl (List.suffix_nil.1 hsuffix)
    · exact (ih h).imp id fun hi => .routine hroutine hi
  | case4 s t hs hv hr => exact .inr .nil

theorem sees_eq_false {s : Reader} {code : Int}
    (h : ∀ t ∈ s.tokens.head?, t.is code = false) : s.sees code = false := by
  cases hs : s.tokens with
  | nil => simp [sees, here?_eq_none_iff.2 hs]
  | cons t ts =>
    rw [sees_of_tokens hs]
    exact h t (by simp [hs])

theorem Sound.coherent_of_head? (h : Sound s) (ht : t ∈ s.tokens.head?) : t.Coherent :=
  h.coherent t (List.mem_of_mem_head? ht)

theorem names_cons [Log α] {s : Reader α} (hs : s.tokens = t :: ts) (hk : t.kind = .ident) :
    names s =
      if s.advance.sees Code.comma then
        match names s.advance.advance with
        | (none, s) => (none, s)
        | (some ts, s) => (some (t :: ts), s)
      else (some [t], s.advance) := by
  have hh := here?_of_tokens hs
  rw [names]
  split
  · simp_all
  · rename_i u hu
    obtain rfl : u = t := by simpa [hh] using hu.symm
    exact if_pos hk

theorem names_complete (h : Names ts us) (hs : tokens s = ts) (hsound : s.Sound)
    (hf : ∀ c ∈ us.head?, c.kind = .colon) :
    ∃ xs s', names s = (some xs, s') ∧ Passes s s' us := by
  induction h generalizing s with
  | last hk =>
    have ha := Passes.advance hs
    have hcomma : s.advance.sees Code.comma = false := by
      apply sees_eq_false
      intro c hc
      have hcoherent := hsound.advance.coherent_of_head? hc
      rw [ha.tokens_eq] at hc
      exact hcoherent.is_eq_false_of_colon (hf c hc) (by decide)
    rw [names_cons hs hk, hcomma]
    exact ⟨_, _, rfl, ha⟩
  | cons hk hc _ ih =>
    have ha := Passes.advance hs
    have ha' := Passes.advance ha.tokens_eq
    obtain ⟨xs, s', hn, hp⟩ := ih ha'.tokens_eq hsound.advance.advance hf
    rw [names_cons hs hk, sees_of_tokens ha.tokens_eq, if_pos hc, hn]
    exact ⟨_, _, rfl, ha.trans (ha'.trans hp)⟩

theorem ofCode?_of_mem (h : code = Code.integerWord ∨ code = Code.realWord) :
    ∃ type, ValueType.ofCode? code = some type := by
  rcases h with rfl | rfl
  · exact ⟨_, rfl⟩
  · exact ⟨_, rfl⟩

theorem typeAnnotation_complete {s : Reader} (h : Typed ts us) (hs : s.tokens = ts) :
    ∃ type s', s.typeAnnotation = (some type, s') ∧ Passes s s' us := by
  obtain ⟨hc, hk, hcode⟩ := h
  have ha := Passes.advance hs
  obtain ⟨type, htype⟩ := ofCode?_of_mem hcode
  have hcolon : s.seesKind .colon = true := by simp [seesKind_of_tokens hs, hc]
  refine ⟨type, s.advance.advance, ?_, ha.trans (.advance ha.tokens_eq)⟩
  unfold typeAnnotation
  rw [if_pos hcolon, typeName, here?_of_tokens ha.tokens_eq]
  simp only [hk, if_true, htype]

theorem typedNames_complete {s : Reader} (hn : Names ts us) (ht : Typed us vs) (hs : s.tokens = ts)
    (hsound : s.Sound) :
    ∃ xs s₁ type s₂, names s = (some xs, s₁) ∧ s₁.typeAnnotation = (some type, s₂) ∧
      Passes s s₂ vs := by
  obtain ⟨xs, s₁, h₁, hp₁⟩ := names_complete hn hs hsound ht.head
  obtain ⟨type, s₂, h₂, hp₂⟩ := typeAnnotation_complete ht hp₁.tokens_eq
  exact ⟨xs, s₁, type, s₂, h₁, h₂, hp₁.trans hp₂⟩

theorem Passes.declareAll (s : Reader) (symbols : List Symbol) :
    Passes s (s.declareAll symbols) s.tokens := by
  induction symbols generalizing s with
  | nil => exact .refl s
  | cons symbol symbols ih => exact (Passes.emit s (by simp)).trans (ih _)

theorem variableLine_complete (hn : Names ts us) (ht : Typed us (c :: vs))
    (hc : c.is Code.semicolon = true) (hs : tokens s = ts) (hsound : s.Sound) :
    Passes s (variableLine s).2 vs := by
  obtain ⟨xs, s₁, type, s₂, h₁, h₂, hp⟩ := typedNames_complete hn ht hs hsound
  have hd := Passes.declareAll s₂ (xs.map fun t => VarDecl.symbol ⟨t, t.lexeme, type⟩)
  rw [hp.tokens_eq] at hd
  have he := hp.trans (hd.trans (.expectSemicolon hd.tokens_eq hc))
  unfold variableLine
  simpa [h₁, h₂, Function.comp_def] using he

theorem variableSection_complete (h : Variables ts us) (hs : tokens s = ts) (hsound : s.Sound)
    (hf : ∀ t ∈ us.head?, t.code ≠ Code.ident) : Passes s (variableSection s).2 us := by
  induction h generalizing s with
  | nil =>
    have hident : ¬ s.seesKind .ident = true := by
      rw [seesKind_iff]
      rintro ⟨t, ts', hts, hk⟩
      have ht : t ∈ s.tokens.head? := by simp [hts]
      have hcode := (hsound.coherent_of_head? ht).code_of_ident hk
      rw [hs] at ht
      exact hf t ht hcode
    rw [variableSection, dif_neg hident]
    exact ⟨hs, id⟩
  | cons hn ht hc _ ih =>
    have hline := variableLine_complete hn ht hc hs hsound
    have hrest := ih hline.tokens_eq ((reads_variableLine s).sound hsound) hf
    obtain ⟨t, ts', hts, hk⟩ := hn.head
    have hident : s.seesKind .ident = true := seesKind_iff.2 ⟨t, ts', hs.trans hts, hk⟩
    rw [variableSection, dif_pos hident]
    exact hline.trans hrest

theorem accept_complete {s : Reader} (h : Marked ts us) (hs : s.tokens = ts) (hsound : s.Sound)
    (hf : ∃ t vs, us = t :: vs ∧ t.kind = .ident) : Passes s (s.accept Code.varWord) us := by
  cases h with
  | plain =>
    obtain ⟨t, vs, rfl, hk⟩ := hf
    have hv : t.is Code.varWord = false :=
      (hsound.coherent_of_tokens hs).is_eq_false_of_ident hk (by decide)
    have he : s.accept Code.varWord = s := by simp [accept, sees_of_tokens hs, hv]
    rw [he]
    exact ⟨hs, id⟩
  | marked hv =>
    rw [accept, sees_of_tokens hs, if_pos hv]
    exact .advance hs

theorem group_complete {s : Reader} (hm : Marked ts us) (hn : Names us vs) (ht : Typed vs ws)
    (hs : s.tokens = ts) (hsound : s.Sound) :
    ∃ xs s₁ type s₂, names (s.accept Code.varWord) = (some xs, s₁) ∧
      s₁.typeAnnotation = (some type, s₂) ∧ Passes s s₂ ws ∧ s₂.Sound := by
  have hp := accept_complete hm hs hsound hn.head
  have hreads := reads_accept (P := Complaint) s Code.varWord
  obtain ⟨xs, s₁, type, s₂, h₁, h₂, hp'⟩ :=
    typedNames_complete hn ht hp.tokens_eq (hreads.sound hsound)
  refine ⟨xs, s₁, type, s₂, h₁, h₂, hp.trans hp', ?_⟩
  have hr := (reads_of_names h₁).trans <| reads_of_typeAnnotation h₂
  exact (hreads.trans hr).sound hsound

theorem paramGroups_group {s : Reader} (h₁ : names (s.accept Code.varWord) = (some xs, s₁))
    (h₂ : s₁.typeAnnotation = (some type, s₂)) :
    (paramGroups s).2 =
      if s₂.sees Code.semicolon then (paramGroups s₂.advance).2
      else if s₂.sees Code.rightParen then (true, s₂.advance)
      else (false, s₂.unexpected .rightParen) := by
  rw [paramGroups]
  split
  · simp_all
  · rename_i hx
    obtain ⟨rfl, rfl⟩ : xs = _ ∧ s₁ = _ := by simpa [h₁] using hx
    split
    · simp_all
    · rename_i hy
      obtain ⟨rfl, rfl⟩ : type = _ ∧ s₂ = _ := by simpa [h₂] using hy
      split
      · rfl
      split
      · rfl
      · rfl

theorem paramGroups_complete (h : Groups ts us) (hs : tokens s = ts) (hsound : s.Sound) :
    (paramGroups s).2.1 = true ∧ Passes s (paramGroups s).2.2 us := by
  induction h generalizing s with
  | last hm hn ht hr =>
    obtain ⟨xs, s₁, type, s₂, h₁, h₂, hp, -⟩ := group_complete hm hn ht hs hsound
    have hsemi : s₂.sees Code.semicolon = false := by
      rw [sees_of_tokens hp.tokens_eq]
      exact Token.is_eq_false hr (by decide)
    have hright : s₂.sees Code.rightParen = true := by rwa [sees_of_tokens hp.tokens_eq]
    rw [paramGroups_group h₁ h₂, hsemi, hright]
    exact ⟨rfl, hp.trans (.advance hp.tokens_eq)⟩
  | cons hm hn ht hc _ ih =>
    obtain ⟨xs, s₁, type, s₂, h₁, h₂, hp, hsound₂⟩ := group_complete hm hn ht hs hsound
    have hsemi : s₂.sees Code.semicolon = true := by rwa [sees_of_tokens hp.tokens_eq]
    have ha := Passes.advance hp.tokens_eq
    obtain ⟨hcomplete, hp'⟩ := ih ha.tokens_eq hsound₂.advance
    rw [paramGroups_group h₁ h₂, if_pos hsemi]
    exact ⟨hcomplete, hp.trans (ha.trans hp')⟩

theorem params_complete (h : Params ts us) (hs : tokens s = ts) (hsound : s.Sound)
    (hf : ∀ t ∈ us.head?, t.Coherent → t.is Code.leftParen = false) :
    Passes s (params s).2 us := by
  cases h with
  | none =>
    have hl : s.sees Code.leftParen = false := by
      apply sees_eq_false
      intro t ht
      have hcoherent := hsound.coherent_of_head? ht
      rw [hs] at ht
      exact hf t ht hcoherent
    rw [params, hl]
    exact ⟨hs, id⟩
  | empty hl hr =>
    have ha := Passes.advance hs
    rw [params, sees_of_tokens hs, if_pos hl, sees_of_tokens ha.tokens_eq, if_pos hr]
    exact ha.trans (.advance ha.tokens_eq)
  | groups hl hg =>
    have ha := Passes.advance hs
    obtain ⟨t, vs, hts, hstart⟩ := hg.head
    have ht := ha.tokens_eq.trans hts
    have hr : ¬ t.is Code.rightParen = true := by
      intro hr
      rcases hstart with hk | hv
      · exact (hsound.advance.coherent_of_tokens ht).kind_ne_ident hr (by decide) hk
      · rw [Token.is_eq_false hv (by decide)] at hr
        cases hr
    obtain ⟨hcomplete, hp⟩ := paramGroups_complete hg ha.tokens_eq hsound.advance
    rw [params, sees_of_tokens hs, if_pos hl, sees_of_tokens ht, if_neg hr]
    split
    · rename_i hx
      rw [hx] at hp
      exact ha.trans hp
    · rename_i hx
      rw [hx] at hcomplete
      cases hcomplete

theorem namedRoutine_complete
    (h : Passes s (resultType (w.is Code.functionWord) s.params.2).2 (c :: ts))
    (hc : c.is Code.semicolon = true) (hbody : Body NestedHeader ts us) :
    Passes s (namedRoutine w n s).2 us := by
  rw [namedRoutine_eq, headerEnd]
  generalize (resultType (w.is Code.functionWord) s.params.2).2 = s₁ at h
  generalize (headerNode w n s).symbol = symbol
  have hemit : Passes s₁ (s₁.emit (.declare symbol)) (c :: ts) := by
    rw [← h.tokens_eq]
    exact .emit s₁ (by simp)
  have hp := h.trans (hemit.trans (.expectSemicolon hemit.tokens_eq hc))
  rw [skipBodyIfThere_of_semicolon (prev_expectSemicolon hemit.tokens_eq hc) hc]
  exact hp.trans (takes_body hbody hp.tokens_eq).1.passes

theorem routine_complete (h : Grammar.Routine NestedHeader ts us) (hs : tokens s = ts)
    (hsound : s.Sound) :
    ∃ w vs, s.tokens = w :: vs ∧ IsRoutineWord w ∧ Passes s (routine w s.advance).2 us := by
  have hnamed {w n : Token} {vs : List Token} (hs : s.tokens = w :: n :: vs)
      (hk : n.kind = .ident) (hp : Passes s.advance.advance
        (namedRoutine w n s.advance.advance).2 us) : Passes s (routine w s.advance).2 us := by
    have ha := Passes.advance hs
    rw [routine, here?_of_tokens ha.tokens_eq]
    simp only [hk, if_true]
    exact ha.trans ((Passes.advance ha.tokens_eq).trans hp)
  cases h with
  | function hw hk hparams ht hc hbody =>
    refine ⟨_, _, hs, .inl hw, hnamed hs hk (namedRoutine_complete ?_ hc hbody)⟩
    have hp := params_complete hparams (tokens_advance_of (tokens_advance_of hs))
      hsound.advance.advance ?_
    · obtain ⟨type, s₂, h₂, hp₂⟩ := typeAnnotation_complete ht hp.tokens_eq
      simp only [hw, resultType, if_true, h₂]
      exact hp.trans hp₂
    · intro t hmem hcoherent
      exact hcoherent.is_eq_false_of_colon (ht.head t hmem) (by decide)
  | procedure hw hk hparams hc hbody =>
    refine ⟨_, _, hs, .inr hw, hnamed hs hk (namedRoutine_complete ?_ hc hbody)⟩
    have hp := params_complete hparams (tokens_advance_of (tokens_advance_of hs))
      hsound.advance.advance ?_
    · rw [Token.is_eq_false hw (by decide)]
      exact hp
    · intro t hmem _
      obtain rfl : _ = t := by simpa using hmem
      exact Token.is_eq_false hc (by decide)

theorem declarations_eq [Log α] (s : Reader α) :
    declarations s =
      match s.here? with
      | none => (([], []), s)
      | some t =>
        if t.is Code.varWord then
          let section_ := variableSection s.advance
          let more := declarations section_.2
          ((section_.1 ++ more.1.1, more.1.2), more.2)
        else if t.is Code.functionWord || t.is Code.procedureWord then
          let first := routine t s.advance
          let more := declarations first.2
          ((more.1.1, first.1.toList ++ more.1.2), more.2)
        else (([], []), s) := by
  rw [declarations]
  split
  · rename_i h
    rw [h]
  · rename_i t h
    rw [h]

theorem declarations_of_tokens (hs : tokens s = t :: ts) :
    declarations s =
      if t.is Code.varWord then
        (((variableSection s.advance).1 ++ (declarations (variableSection s.advance).2).1.1,
          (declarations (variableSection s.advance).2).1.2),
          (declarations (variableSection s.advance).2).2)
      else if t.is Code.functionWord || t.is Code.procedureWord then
        (((declarations (routine t s.advance).2).1.1,
          (routine t s.advance).1.toList ++ (declarations (routine t s.advance).2).1.2),
          (declarations (routine t s.advance).2).2)
      else (([], []), s) := by
  rw [declarations_eq, here?_of_tokens hs]

/-- Declarations in front of a block are read without a report. -/
theorem declarations_complete (h : Declarations NestedHeader ts us) (hs : tokens s = ts)
    (hsound : s.Sound) (hb : us = b :: vs) (hbegin : b.is Code.beginWord = true) :
    Passes s (declarations s).2 us := by
  have hfollow : ∀ t ∈ us.head?, t.is Code.beginWord = true := by
    intro t ht
    obtain rfl : b = t := by simpa [hb] using ht
    exact hbegin
  induction h generalizing s with
  | nil =>
    have hv : b.is Code.varWord = false := Token.is_eq_false hbegin (by decide)
    have hf : b.is Code.functionWord = false := Token.is_eq_false hbegin (by decide)
    have hp : b.is Code.procedureWord = false := Token.is_eq_false hbegin (by decide)
    rw [declarations_of_tokens (hs.trans hb), hv, hf, hp]
    exact ⟨hs, id⟩
  | vars hv hvars hrest ih =>
    have ha := Passes.advance hs
    have hp := variableSection_complete hvars ha.tokens_eq hsound.advance
      (hrest.head hfollow (by decide))
    have hr := (reads_variableSection s.advance).sound hsound.advance
    rw [declarations_of_tokens hs, if_pos hv]
    exact ha.trans (hp.trans (ih hp.tokens_eq hr hb hfollow))
  | routine hroutine _ ih =>
    obtain ⟨w, ws, hw, hword, hp⟩ := routine_complete hroutine hs hsound
    have hr := (reads_routine w s.advance).sound hsound.advance
    have hv : w.is Code.varWord = false := hword.is_eq_false (by decide) (by decide)
    have hor : (w.is Code.functionWord || w.is Code.procedureWord) = true := by
      simpa [IsRoutineWord] using hword
    rw [declarations_of_tokens hw, hv, hor]
    exact hp.trans (ih hp.tokens_eq hr hb hfollow)

end PascalCheck.Reader
