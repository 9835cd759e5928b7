import PascalCheck.Proofs.View.Program

namespace PascalCheck.Reader
set_option autoImplicit true

/-- The reader with other readings in place of the last ones ahead of it. -/
def graft (k : Nat) (tail : List Reading) (s : Reader) : Reader :=
  { s with rest := s.rest.take (s.remaining - k) ++ tail }

variable {k : Nat} {tail : List Reading} {s : Reader}

theorem rest_graft (hr : s.rest = r :: rs) (h : k ≤ rs.length) :
    (s.graft k tail).rest = r :: (rs.take (rs.length - k) ++ tail) := by
  have hlength : s.remaining - k = rs.length - k + 1 := by
    rw [remaining, hr, List.length_cons]
    omega
  rw [graft, hlength, hr]
  rfl

theorem exists_rest (h : k < s.remaining) : ∃ r rs, s.rest = r :: rs ∧ k ≤ rs.length := by
  cases hr : s.rest with
  | nil => simp [remaining, hr] at h
  | cons r rs =>
    rw [remaining, hr, List.length_cons] at h
    exact ⟨r, rs, rfl, by omega⟩

theorem Reads.remaining_le (h : Reads P s s') : s'.remaining ≤ s.remaining := by
  refine h.invariant (I := fun u => u.remaining ≤ s.remaining) (Nat.le_refl _) ?_
    fun _ _ _ hu => hu
  intro u t _ hu
  exact Nat.le_trans u.remaining_advance_le hu

theorem here?_graft (h : k < s.remaining) : (s.graft k tail).here? = s.here? := by
  obtain ⟨r, rs, hr, hk⟩ := exists_rest h
  rw [here?, rest_graft hr hk, here?, hr]
  rfl

theorem here?_ne_none (h : k < s.remaining) : s.here? ≠ none := by
  obtain ⟨r, rs, hr, -⟩ := exists_rest h
  simp [here?, hr]

theorem current_graft (h : k < s.remaining) : (s.graft k tail).current = s.current := by
  obtain ⟨r, rs, hr, hk⟩ := exists_rest h
  rw [current, rest_graft hr hk, current, hr]
  rfl

theorem atEnd_graft (h : k < s.remaining) : (s.graft k tail).atEnd = s.atEnd := by
  obtain ⟨r, rs, hr, hk⟩ := exists_rest h
  rw [atEnd, rest_graft hr hk, atEnd, hr]
  rfl

theorem sees_graft (h : k < s.remaining) (code : Int) :
    (s.graft k tail).sees code = s.sees code := by
  rw [sees, here?_graft h, sees]

theorem seesKind_graft (h : k < s.remaining) (kind : Kind) :
    (s.graft k tail).seesKind kind = s.seesKind kind := by
  rw [seesKind, here?_graft h, seesKind]

theorem seesForward_graft (h : k < s.remaining) :
    (s.graft k tail).seesForward = s.seesForward := by
  rw [seesForward, here?_graft h, seesForward]

theorem lastLine_graft (h : k < s.remaining) : (s.graft k tail).lastLine = s.lastLine := by
  rw [lastLine, line, current_graft h]
  rfl

theorem tokens_graft_of_here? (h : k < s.remaining) (ht : s.here? = some t) :
    (s.graft k tail).tokens = t :: (s.graft k tail).advance.tokens :=
  tokens_of_here? ((here?_graft h).trans ht)

theorem emit_graft (s : Reader) (e : Event) : (s.graft k tail).emit e = (s.emit e).graft k tail :=
  rfl

theorem unexpected_graft (h : k < s.remaining) (wanted : Wanted) :
    (s.graft k tail).unexpected wanted = (s.unexpected wanted).graft k tail := by
  rw [unexpected, line, current_graft h]
  rfl

theorem advance_graft (h : k < s.advance.remaining) :
    (s.graft k tail).advance = s.advance.graft k tail := by
  have hs : k < s.remaining := Nat.lt_of_lt_of_le h s.remaining_advance_le
  obtain ⟨r, rs, hr, hk⟩ := exists_rest hs
  have hrest : s.advance.rest = rs := by simp [advance, hr]
  obtain ⟨r', rs', hr', hk'⟩ := exists_rest h
  rw [hrest] at hr'
  have hgraft : s.graft k tail = { s with rest := r :: (rs.take (rs.length - k) ++ tail) } := by
    rw [← rest_graft hr hk]
    rfl
  have hgraft' : s.advance.graft k tail =
      { s.advance with rest := r' :: (rs'.take (rs'.length - k) ++ tail) } := by
    rw [← rest_graft (hrest.trans hr') hk']
    rfl
  have htake : rs.take (rs.length - k) ++ tail = r' :: (rs'.take (rs'.length - k) ++ tail) := by
    rw [← rest_graft (hrest.trans hr') hk', graft, remaining, hrest]
  rw [hgraft, hgraft', htake]
  simp [advance, hr, hr']

theorem skipWhile_graft {p : Token → Bool} (h : k < (s.skipWhile p).remaining) :
    (s.graft k tail).skipWhile p = (s.skipWhile p).graft k tail := by
  fun_induction skipWhile p s with
  | case1 s hs => exact absurd hs (here?_ne_none h)
  | case2 s t ht hp ih =>
    have ha := Nat.lt_of_lt_of_le h (remaining_skipWhile_le p s.advance)
    have hs := Nat.lt_of_lt_of_le ha s.remaining_advance_le
    rw [skipWhile_of_pos (tokens_graft_of_here? hs ht) hp, advance_graft ha, ih h]
  | case3 s t ht hp =>
    rw [skipWhile_of_neg (tokens_graft_of_here? h ht) (by simpa using hp)]

theorem accept_graft (code : Int) (h : k < (s.accept code).remaining) :
    (s.graft k tail).accept code = (s.accept code).graft k tail := by
  have hs := Nat.lt_of_lt_of_le h (remaining_accept_le s code)
  unfold accept at h ⊢
  rw [sees_graft hs]
  split
  · rename_i hc
    rw [if_pos hc] at h
    exact advance_graft h
  · rfl

theorem synchronize_graft (h : k < s.synchronize.remaining) :
    (s.graft k tail).synchronize = s.synchronize.graft k tail := by
  have hskip := Nat.lt_of_lt_of_le h (remaining_accept_le _ _)
  rw [synchronize, skipWhile_graft hskip, accept_graft _ h]
  rfl

theorem expectSemicolon_graft (h : k < s.expectSemicolon.remaining) :
    (s.graft k tail).expectSemicolon = s.expectSemicolon.graft k tail := by
  have hs := Nat.lt_of_lt_of_le h (remaining_expectSemicolon_le s)
  unfold expectSemicolon at h ⊢
  rw [sees_graft hs, lastLine_graft hs]
  split
  · rename_i hc
    rw [if_pos hc] at h
    exact advance_graft h
  · rename_i hc
    rw [if_neg hc] at h
    exact synchronize_graft h

theorem skipHeader_graft (depth : Int) (h : k < (skipHeader depth s).remaining) :
    skipHeader depth (s.graft k tail) = (skipHeader depth s).graft k tail := by
  have hs := Nat.lt_of_lt_of_le h (remaining_skipHeader_le depth s)
  fun_induction skipHeader depth s with
  | case1 depth s ht => exact absurd ht (here?_ne_none hs)
  | case2 depth s t ht hl ih =>
    have ha := Nat.lt_of_lt_of_le h (remaining_skipHeader_le _ s.advance)
    rw [skipHeader_cons (tokens_graft_of_here? hs ht), if_pos hl, advance_graft ha, ih h ha]
  | case3 depth s t ht hl hr ih =>
    have ha := Nat.lt_of_lt_of_le h (remaining_skipHeader_le _ s.advance)
    rw [skipHeader_cons (tokens_graft_of_here? hs ht), if_neg hl, if_pos hr, advance_graft ha,
      ih h ha]
  | case4 depth s t ht hl hr hc =>
    rw [skipHeader_cons (tokens_graft_of_here? hs ht), if_neg hl, if_neg hr, if_pos hc]
  | case5 depth s t ht hl hr hc ih =>
    have ha := Nat.lt_of_lt_of_le h (remaining_skipHeader_le _ s.advance)
    rw [skipHeader_cons (tokens_graft_of_here? hs ht), if_neg hl, if_neg hr, if_neg hc,
      advance_graft ha, ih h ha]

theorem skipCompound_graft (levels : Nat) (h : k < (skipCompound levels s).remaining) :
    skipCompound levels (s.graft k tail) = (skipCompound levels s).graft k tail := by
  have hs := Nat.lt_of_lt_of_le h (remaining_skipCompound_le levels s)
  fun_induction skipCompound levels s with
  | case1 levels s ht => exact absurd ht (here?_ne_none hs)
  | case2 levels s t ht ho ih =>
    have ha := Nat.lt_of_lt_of_le h (remaining_skipCompound_le _ s.advance)
    rw [skipCompound_cons (tokens_graft_of_here? hs ht), if_pos ho, advance_graft ha, ih h ha]
  | case3 s t ht ho he =>
    rw [skipCompound_cons (tokens_graft_of_here? hs ht), if_neg ho, if_pos he]
    exact advance_graft h
  | case4 s t ht ho he levels ih =>
    have ha := Nat.lt_of_lt_of_le h (remaining_skipCompound_le _ s.advance)
    rw [skipCompound_cons (tokens_graft_of_here? hs ht), if_neg ho, if_pos he]
    dsimp only
    rw [advance_graft ha, ih h ha]
  | case5 levels s t ht ho he ih =>
    have ha := Nat.lt_of_lt_of_le h (remaining_skipCompound_le _ s.advance)
    rw [skipCompound_cons (tokens_graft_of_here? hs ht), if_neg ho, if_neg he, advance_graft ha,
      ih h ha]

theorem skipLocals_graft (h : k < s.skipLocals.remaining) :
    (s.graft k tail).skipLocals = s.skipLocals.graft k tail :=
  skipWhile_graft h

theorem skipBlock_graft (h : k < s.skipBlock.remaining) :
    (s.graft k tail).skipBlock = s.skipBlock.graft k tail := by
  have hc := Nat.lt_of_lt_of_le h (remaining_expectSemicolon_le _)
  have ha := Nat.lt_of_lt_of_le hc (remaining_skipCompound_le _ _)
  rw [skipBlock, advance_graft ha, skipCompound_graft 0 hc, expectSemicolon_graft h]
  rfl

theorem skipToNested_graft (h : k < s.skipToNested.remaining) :
    (s.graft k tail).skipToNested = s.skipToNested.graft k tail := by
  have hl := Nat.lt_of_lt_of_le h (remaining_skipHeader_le _ _)
  rw [skipToNested, skipLocals_graft hl, skipHeader_graft 0 h]
  rfl

theorem skipBodies_graft (outer : Nat) (h : k < (skipBodies outer s).remaining) :
    skipBodies outer (s.graft k tail) = (skipBodies outer s).graft k tail := by
  fun_induction skipBodies outer s with
  | case1 s hb =>
    have hl := Nat.lt_trans h (remaining_skipBlock_lt hb)
    rw [skipBodies.eq_def, skipLocals_graft hl, sees_graft hl, dif_pos hb, skipBlock_graft h]
  | case2 s hb outer ih =>
    have hk := Nat.lt_of_lt_of_le h (remaining_skipBodies_le _ _)
    have hl := Nat.lt_trans hk (remaining_skipBlock_lt hb)
    rw [skipBodies.eq_def, skipLocals_graft hl, sees_graft hl, dif_pos hb]
    dsimp only
    rw [skipBlock_graft hk, ih h]
  | case3 outer s hb he =>
    have hne := here?_ne_none h
    exact absurd (here?_eq_none_iff.2 (atEnd_iff.1 he)) hne
  | case4 outer s hb he hf ih =>
    have hd := Nat.lt_of_lt_of_le h (remaining_skipBodies_le _ _)
    have hw := Nat.lt_of_lt_of_le hd (remaining_expectSemicolon_le _)
    have ha := Nat.lt_of_lt_of_le hw (remaining_advance_le _)
    have hn := Nat.lt_of_lt_of_le ha (remaining_advance_le _)
    have hl := Nat.lt_of_lt_of_le hn (remaining_skipHeader_le _ _)
    rw [skipBodies.eq_def, skipLocals_graft hl, sees_graft hl, dif_neg hb, skipToNested_graft hn,
      atEnd_graft hn, dif_neg he, advance_graft ha, seesForward_graft ha, if_pos hf,
      advance_graft hw, expectSemicolon_graft hd, ih h]
  | case5 outer s hb he hf ih =>
    have ha := Nat.lt_of_lt_of_le h (remaining_skipBodies_le _ _)
    have hn := Nat.lt_of_lt_of_le ha (remaining_advance_le _)
    have hl := Nat.lt_of_lt_of_le hn (remaining_skipHeader_le _ _)
    rw [skipBodies.eq_def, skipLocals_graft hl, sees_graft hl, dif_neg hb, skipToNested_graft hn,
      atEnd_graft hn, dif_neg he, advance_graft ha, seesForward_graft ha, if_neg hf, ih h]

theorem skipBody_graft (h : k < s.skipBody.remaining) :
    (s.graft k tail).skipBody = s.skipBody.graft k tail := by
  have hs := Nat.lt_of_lt_of_le h s.remaining_skipBody_le
  unfold skipBody at h ⊢
  rw [seesForward_graft hs]
  split
  · rename_i hf
    rw [if_pos hf] at h
    have ha := Nat.lt_of_lt_of_le h (remaining_expectSemicolon_le _)
    rw [advance_graft ha, expectSemicolon_graft h]
  · rename_i hf
    rw [if_neg hf] at h
    exact skipBodies_graft 0 h

theorem skipBodyIfThere_graft (h : k < s.skipBodyIfThere.remaining) :
    (s.graft k tail).skipBodyIfThere = s.skipBodyIfThere.graft k tail := by
  have hs := Nat.lt_of_lt_of_le h s.remaining_skipBodyIfThere_le
  have hb : (s.graft k tail).atBody = s.atBody := by
    rw [atBody, sees_graft hs, sees_graft hs]
    rfl
  unfold skipBodyIfThere at h ⊢
  rw [hb]
  split
  · rename_i hthere
    rw [if_pos hthere] at h
    exact skipBody_graft h
  · rfl

theorem names_graft (h : k < (names s).2.remaining) :
    names (s.graft k tail) = ((names s).1, (names s).2.graft k tail) := by
  have hs := Nat.lt_of_lt_of_le h (remaining_names_le s)
  fun_induction names s with
  | case1 s ht => exact absurd ht (here?_ne_none hs)
  | case2 s t ht hk hc s' hn ih =>
    have hr := remaining_names_le s.advance.advance
    rw [hn] at hr
    have haa := Nat.lt_of_lt_of_le h hr
    have ha := Nat.lt_of_lt_of_le haa (remaining_advance_le _)
    rw [names_cons (tokens_graft_of_here? hs ht) hk, advance_graft ha, sees_graft ha, if_pos hc,
      advance_graft haa, ih (by rwa [hn]) haa, hn]
  | case3 s t ht hk hc ts s' hn ih =>
    have hr := remaining_names_le s.advance.advance
    rw [hn] at hr
    have haa := Nat.lt_of_lt_of_le h hr
    have ha := Nat.lt_of_lt_of_le haa (remaining_advance_le _)
    rw [names_cons (tokens_graft_of_here? hs ht) hk, advance_graft ha, sees_graft ha, if_pos hc,
      advance_graft haa, ih (by rwa [hn]) haa, hn]
  | case4 s t ht hk hc =>
    rw [names_cons (tokens_graft_of_here? hs ht) hk, advance_graft h, sees_graft h, if_neg hc]
  | case5 s t ht hk =>
    rw [names]
    split
    · rename_i hnone
      rw [here?_graft hs, ht] at hnone
      cases hnone
    · rename_i u hu
      obtain rfl : t = u := by simpa [here?_graft hs, ht] using hu
      rw [if_neg hk, unexpected_graft hs]

theorem typeName_graft (h : k < s.typeName.2.remaining) :
    (s.graft k tail).typeName = (s.typeName.1, s.typeName.2.graft k tail) := by
  have hs := Nat.lt_of_lt_of_le h s.remaining_typeName_le
  unfold typeName at h ⊢
  rw [here?_graft hs]
  split
  · rw [unexpected_graft hs]
  · rename_i t ht
    rw [ht] at h
    dsimp only at h
    split
    · rename_i hk
      rw [if_pos hk] at h
      split
      · rename_i type htype
        rw [htype] at h
        rw [advance_graft h]
      · rw [unexpected_graft hs]
    · rw [unexpected_graft hs]

theorem typeAnnotation_graft (h : k < s.typeAnnotation.2.remaining) :
    typeAnnotation (s.graft k tail) = (s.typeAnnotation.1, s.typeAnnotation.2.graft k tail) := by
  have hs := Nat.lt_of_lt_of_le h s.remaining_typeAnnotation_le
  unfold typeAnnotation at h ⊢
  rw [seesKind_graft hs]
  split
  · rename_i hc
    rw [if_pos hc] at h
    have ha := Nat.lt_of_lt_of_le h s.advance.remaining_typeName_le
    rw [advance_graft ha, typeName_graft h]
  · rw [unexpected_graft hs]

theorem declareAll_graft (s : Reader) (symbols : List Symbol) :
    (s.graft k tail).declareAll symbols = (s.declareAll symbols).graft k tail := by
  induction symbols generalizing s with
  | nil => rfl
  | cons symbol symbols ih => exact ih (s.emit (.declare symbol))

theorem remaining_of_named (hn : names s = (ts?, s')) : s'.remaining ≤ s.remaining := by
  have hle := remaining_names_le s
  rwa [hn] at hle

theorem remaining_of_annotated (ha : s.typeAnnotation = (type?, s')) :
    s'.remaining ≤ s.remaining := by
  have hle := s.remaining_typeAnnotation_le
  rwa [ha] at hle

theorem names_graft_of (hn : names s = (ts?, s')) (h : k < s'.remaining) :
    names (s.graft k tail) = (ts?, s'.graft k tail) := by
  rw [names_graft (by rwa [hn]), hn]

theorem typeAnnotation_graft_of (ha : s.typeAnnotation = (type?, s')) (h : k < s'.remaining) :
    typeAnnotation (s.graft k tail) = (type?, s'.graft k tail) := by
  rw [typeAnnotation_graft (by rwa [ha]), ha]

theorem variableLine_graft (h : k < (variableLine s).2.remaining) :
    variableLine (s.graft k tail) = ((variableLine s).1, (variableLine s).2.graft k tail) := by
  unfold variableLine at h ⊢
  rcases hn : names s with ⟨_ | ts, s₁⟩
  · rw [hn] at h
    have hs₁ := Nat.lt_of_lt_of_le h s₁.remaining_synchronize_le
    rw [names_graft_of hn hs₁]
    exact congrArg (Prod.mk []) (synchronize_graft h)
  · rw [hn] at h
    dsimp only at h ⊢
    have htype := s₁.remaining_typeAnnotation_le
    rcases ha : s₁.typeAnnotation with ⟨_ | type, s₂⟩
    · rw [ha] at h htype
      have hs₂ := Nat.lt_of_lt_of_le h s₂.remaining_synchronize_le
      rw [names_graft_of hn (Nat.lt_of_lt_of_le hs₂ htype)]
      dsimp only
      rw [typeAnnotation_graft_of ha hs₂]
      exact congrArg (Prod.mk []) (synchronize_graft h)
    · rw [ha] at h htype
      dsimp only at h ⊢
      have hd := Nat.lt_of_lt_of_le h (remaining_expectSemicolon_le _)
      have hs₂ : k < s₂.remaining := by rwa [remaining_declareAll] at hd
      rw [names_graft_of hn (Nat.lt_of_lt_of_le hs₂ htype)]
      dsimp only
      rw [typeAnnotation_graft_of ha hs₂]
      dsimp only
      rw [declareAll_graft, expectSemicolon_graft h]

theorem variableSection_graft (h : k < (variableSection s).2.remaining) :
    variableSection (s.graft k tail) =
      ((variableSection s).1, (variableSection s).2.graft k tail) := by
  have hs := Nat.lt_of_lt_of_le h (remaining_variableSection_le s)
  fun_induction variableSection s with
  | case1 s hk line more ih =>
    have hline := Nat.lt_of_lt_of_le h (remaining_variableSection_le line.2)
    rw [variableSection, dif_pos (by rwa [seesKind_graft hs])]
    dsimp only [line, more] at ih hline h ⊢
    rw [variableLine_graft hline, ih h hline]
  | case2 s hk =>
    rw [variableSection, dif_neg (by rwa [seesKind_graft hs])]

theorem paramGroups_graft (h : k < (paramGroups s).2.2.remaining) :
    paramGroups (s.graft k tail) =
      ((paramGroups s).1, (paramGroups s).2.1, (paramGroups s).2.2.graft k tail) := by
  fun_induction paramGroups s with
  | case1 s t hn =>
    have hnames := remaining_names_le (s.accept Code.varWord)
    rw [hn] at hnames
    have ha := Nat.lt_of_lt_of_le h hnames
    rw [paramGroups_eq, accept_graft _ ha, names_graft_of hn h]
  | case2 s ts t hn u ha =>
    have ht := Nat.lt_of_lt_of_le h (remaining_of_annotated ha)
    have hs := Nat.lt_of_lt_of_le ht (remaining_of_named hn)
    rw [paramGroups_eq, accept_graft _ hs, names_graft_of hn ht]
    simp only [typeAnnotation_graft_of ha h]
  | case3 s ts t hn type u ha group hs more complete s' hp ih =>
    have hmore := remaining_paramGroups_le u.advance
    rw [hp] at hmore
    have hadv := Nat.lt_of_lt_of_le h hmore
    have hu := Nat.lt_of_lt_of_le hadv u.remaining_advance_le
    have ht := Nat.lt_of_lt_of_le hu (remaining_of_annotated ha)
    have hv := Nat.lt_of_lt_of_le ht (remaining_of_named hn)
    have hi := ih (by rwa [hp])
    rw [paramGroups_eq, accept_graft _ hv, names_graft_of hn ht]
    simp only [typeAnnotation_graft_of ha hu, sees_graft hu, hs, if_true, advance_graft hadv, hi,
      hp]
    rfl
  | case4 s ts t hn type u ha group hs hr =>
    have hu := Nat.lt_of_lt_of_le h u.remaining_advance_le
    have ht := Nat.lt_of_lt_of_le hu (remaining_of_annotated ha)
    have hv := Nat.lt_of_lt_of_le ht (remaining_of_named hn)
    rw [paramGroups_eq, accept_graft _ hv, names_graft_of hn ht]
    simp only [typeAnnotation_graft_of ha hu, sees_graft hu, hs, hr, if_true, if_false,
      advance_graft h, Bool.false_eq_true]
    rfl
  | case5 s ts t hn type u ha group hs hr =>
    have hu : k < u.remaining := h
    have ht := Nat.lt_of_lt_of_le hu (remaining_of_annotated ha)
    have hv := Nat.lt_of_lt_of_le ht (remaining_of_named hn)
    rw [paramGroups_eq, accept_graft _ hv, names_graft_of hn ht]
    simp only [typeAnnotation_graft_of ha hu, sees_graft hu, hs, hr, if_false,
      unexpected_graft hu, Bool.false_eq_true]
    rfl

theorem skipParams_graft (h : k < s.skipParams.remaining) :
    (s.graft k tail).skipParams = s.skipParams.graft k tail := by
  have hskip := Nat.lt_of_lt_of_le h (remaining_accept_le _ _)
  rw [skipParams, skipWhile_graft hskip, accept_graft _ h]
  rfl

theorem params_graft (h : k < (params s).2.remaining) :
    params (s.graft k tail) = ((params s).1, (params s).2.graft k tail) := by
  have hs := Nat.lt_of_lt_of_le h s.remaining_params_le
  unfold params at h ⊢
  rw [sees_graft hs]
  split
  · rename_i hl
    rw [if_pos hl] at h
    by_cases hr : s.advance.sees Code.rightParen = true
    · rw [if_pos hr] at h
      have ha := Nat.lt_of_lt_of_le h s.advance.remaining_advance_le
      rw [advance_graft ha, sees_graft ha, if_pos hr, if_pos hr, advance_graft h]
    · rw [if_neg hr] at h
      have hgroups := remaining_paramGroups_le s.advance
      rcases hg : paramGroups s.advance with ⟨ps, complete, t⟩
      rw [hg] at h hgroups
      have ht : k < t.remaining := by
        cases complete with
        | true => exact h
        | false => exact Nat.lt_of_lt_of_le h t.remaining_skipParams_le
      have ha := Nat.lt_of_lt_of_le ht hgroups
      rw [advance_graft ha, sees_graft ha, if_neg hr, if_neg hr, paramGroups_graft (by rwa [hg]),
        hg]
      cases complete with
      | true => rfl
      | false => exact congrArg (Prod.mk ps) (skipParams_graft h)
  · rfl

theorem resultType_graft (isFunction : Bool) (h : k < (resultType isFunction s).2.remaining) :
    resultType isFunction (s.graft k tail) =
      ((resultType isFunction s).1, (resultType isFunction s).2.graft k tail) := by
  cases isFunction with
  | true =>
    have htype : k < s.typeAnnotation.2.remaining := h
    simp only [resultType, if_true, typeAnnotation_graft htype]
  | false => rfl

theorem namedRoutine_graft (word name : Token) (h : k < (namedRoutine word name s).2.remaining) :
    namedRoutine word name (s.graft k tail) =
      ((namedRoutine word name s).1, (namedRoutine word name s).2.graft k tail) := by
  unfold namedRoutine at h ⊢
  dsimp only at h ⊢
  have hbody := Nat.lt_of_lt_of_le h (remaining_skipBodyIfThere_le _)
  have hresult := Nat.lt_of_lt_of_le hbody (remaining_expectSemicolon_le _)
  rw [remaining_emit] at hresult
  have hparams := Nat.lt_of_lt_of_le hresult (remaining_resultType_le _ _)
  rw [params_graft hparams, resultType_graft _ hresult, emit_graft, expectSemicolon_graft hbody,
    skipBodyIfThere_graft h]

theorem routine_graft (word : Token) (h : k < (routine word s).2.remaining) :
    routine word (s.graft k tail) = ((routine word s).1, (routine word s).2.graft k tail) := by
  have hs := Nat.lt_of_lt_of_le h (remaining_routine_le word s)
  have hfail (hf : k < (s.unexpected .routineName).synchronize.skipBodyIfThere.remaining) :
      ((s.graft k tail).unexpected .routineName).synchronize.skipBodyIfThere =
        (s.unexpected .routineName).synchronize.skipBodyIfThere.graft k tail := by
    have hsync := Nat.lt_of_lt_of_le hf (remaining_skipBodyIfThere_le _)
    rw [unexpected_graft hs, synchronize_graft hsync, skipBodyIfThere_graft hf]
  unfold routine at h ⊢
  rw [here?_graft hs]
  split
  · rename_i ht
    rw [ht] at h
    rw [hfail h]
  · rename_i t ht
    rw [ht] at h
    dsimp only at h ⊢
    split
    · rename_i hk
      rw [if_pos hk] at h
      have ha := Nat.lt_of_lt_of_le h (remaining_namedRoutine_le _ _ _)
      rw [advance_graft ha, namedRoutine_graft _ _ h]
    · rename_i hk
      rw [if_neg hk] at h
      rw [hfail h]

theorem declarations_graft (h : k < (declarations s).2.remaining) :
    declarations (s.graft k tail) = ((declarations s).1, (declarations s).2.graft k tail) := by
  fun_induction declarations s with
  | case1 s hs => exact absurd hs (here?_ne_none h)
  | case2 s t ht hv section_ more ih =>
    have hsection := Nat.lt_of_lt_of_le h (reads_declarations _).remaining_le
    have ha := Nat.lt_of_lt_of_le hsection (remaining_variableSection_le _)
    have hs := Nat.lt_of_lt_of_le ha s.remaining_advance_le
    rw [declarations_eq, here?_graft hs, ht]
    dsimp only [section_, more] at ih hsection h ⊢
    rw [if_pos hv, advance_graft ha, variableSection_graft hsection, ih h]
  | case3 s t ht hv hr first more ih =>
    have hfirst := Nat.lt_of_lt_of_le h (reads_declarations _).remaining_le
    have ha := Nat.lt_of_lt_of_le hfirst (remaining_routine_le _ _)
    have hs := Nat.lt_of_lt_of_le ha s.remaining_advance_le
    rw [declarations_eq, here?_graft hs, ht]
    dsimp only [first, more] at ih hfirst h ⊢
    rw [if_neg hv, if_pos hr, advance_graft ha, routine_graft _ hfirst, ih h]
  | case4 s t ht hv hr =>
    rw [declarations_eq, here?_graft h, ht]
    dsimp only
    rw [if_neg hv, if_neg hr]

theorem header_graft (h : k < s.header.2.remaining) :
    (s.graft k tail).header = (s.header.1, s.header.2.graft k tail) := by
  have hs := Nat.lt_of_lt_of_le h (reads_header s).remaining_le
  unfold header at h ⊢
  rw [sees_graft hs]
  split
  · rename_i hp
    rw [if_pos hp] at h
    cases hn : s.advance.here? with
    | none =>
      rw [hn] at h
      have ha := Nat.lt_of_lt_of_le h (remaining_synchronize_le _)
      rw [remaining_unexpected] at ha
      exact absurd hn (here?_ne_none ha)
    | some t =>
      rw [hn] at h
      dsimp only at h
      split at h
      · rename_i hk
        have haa := Nat.lt_of_lt_of_le h (remaining_expectSemicolon_le _)
        have ha := Nat.lt_of_lt_of_le haa (remaining_advance_le _)
        rw [advance_graft ha, here?_graft ha, hn]
        dsimp only
        rw [if_pos hk, if_pos hk, advance_graft haa, expectSemicolon_graft h]
      · rename_i hk
        have ha := Nat.lt_of_lt_of_le h (remaining_synchronize_le _)
        rw [remaining_unexpected] at ha
        rw [advance_graft ha, here?_graft ha, hn]
        dsimp only
        rw [if_neg hk, if_neg hk, unexpected_graft ha, synchronize_graft h]
  · rfl

/-- What is read before the body does not depend on the tokens behind its start. -/
theorem declared_graft (h : k < s.declared.remaining) :
    (s.graft k tail).declared = s.declared.graft k tail := by
  have hh := Nat.lt_of_lt_of_le h (reads_declarations _).remaining_le
  rw [declared, header_graft hh, declarations_graft h]
  rfl

theorem remaining_of_tokens (hs : tokens s = ts ++ us) :
    s.remaining = ts.length + us.length := by
  rw [← List.length_append, ← hs, tokens, List.length_map, remaining]

theorem tokens_graft (hs : tokens s = ts ++ us) :
    (s.graft us.length tail).tokens = ts ++ tail.map Reading.token := by
  have htake : (s.rest.take ts.length).map Reading.token = ts := by
    rw [List.map_take, ← tokens, hs]
    exact List.take_left
  rw [tokens, graft, remaining_of_tokens hs, Nat.add_sub_cancel, List.map_append, htake]

end PascalCheck.Reader

namespace PascalCheck
set_option autoImplicit true

theorem Reading.gather_concat (h : ∀ t ∈ ts ++ [e], t.kind ≠ .unknown) (negated : Bool)
    (us : List Token) :
    gather negated [] (ts ++ e :: us) =
      ((gather negated [] (ts ++ [e])).1 ++ (gather (e.is Code.minus) [] us).1,
        (gather (e.is Code.minus) [] us).2) := by
  induction ts generalizing negated with
  | nil => simp [gather, h e (by simp)]
  | cons t ts ih =>
    have ht := h t (by simp)
    have hi := ih (fun u hu => h u (List.mem_cons_of_mem t hu)) (t.is Code.minus)
    simp [gather, ht, hi]

theorem Reader.exists_graft (scan : Scan) (hts : ∀ t ∈ ts ++ [e], t.kind ≠ .unknown)
    (hus : ∀ t ∈ us, t.kind ≠ .unknown) (hvs : ∀ t ∈ vs, t.kind ≠ .unknown)
    (hscan : scan.tokens = ts ++ e :: us) :
    ∃ tail, ofScan { scan with tokens := ts ++ e :: vs } = (ofScan scan).graft us.length tail ∧
      tail.map Reading.token = vs := by
  have htoken {xs : List Token} (hxs : ∀ t ∈ xs, t.kind ≠ .unknown) (negated : Bool) :
      (Reading.gather negated [] xs).1.map Reading.token = xs := by
    rw [Reading.tokens_gather, List.filter_eq_self]
    intro t ht
    simpa using hxs t ht
  refine ⟨(Reading.gather (e.is Code.minus) [] vs).1, ?_, htoken hvs _⟩
  obtain ⟨tokens, final, q⟩ := scan
  obtain rfl : tokens = ts ++ e :: us := hscan
  have hlength := congrArg List.length (htoken hus (e.is Code.minus))
  have hfirst := htoken hts false
  have hbefore := Reading.gather_concat hts false us
  have hafter := Reading.gather_concat hts false vs
  simp only [ofScan, start, hbefore, hafter, Reading.gather_snd_of_legal hus,
    Reading.gather_snd_of_legal hvs]
  cases hfront : (Reading.gather false [] (ts ++ [e])).1 with
  | nil =>
    rw [hfront] at hfirst
    exact absurd hfirst.symm (by simp)
  | cons r rs =>
    rw [List.length_map] at hlength
    have hcount : rs.length + us.length + 1 - us.length = rs.length + 1 := by omega
    simp [graft, remaining, hlength, hcount]

end PascalCheck
