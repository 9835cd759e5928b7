import PascalCheck.Proofs.Reader.Story
import PascalCheck.Tree.Declaration
import PascalCheck.Tree.Expression

namespace PascalCheck
set_option autoImplicit true

/-- The cause is a violation of the grammar. -/
def Cause.isGrammatical : Cause → Bool
  | .missingSemicolon | .missingDot | .missingBegin | .missingEnd | .missingAssign
  | .unexpected _ _ => true
  | _ => false

namespace Reader

/-- A reader gets from one state to another by taking tokens and adding events that are allowed
where they are added. -/
inductive Reads (P : Reader → Event → Prop) : Reader → Reader → Prop
  | refl : Reads P s s
  | take : s.here? = some t → Reads P s.advance s' → Reads P s s'
  | emit : P s e → Reads P (s.emit e) s' → Reads P s s'

namespace Reads

theorem trans (h : Reads P s s') (k : Reads P s' s'') : Reads P s s'' := by
  induction h with
  | refl => exact k
  | take ht _ ih => exact .take ht (ih k)
  | emit he _ ih => exact .emit he (ih k)

theorem mono (h : Reads P s s') (hPQ : ∀ s e, P s e → Q s e) : Reads Q s s' := by
  induction h with
  | refl => exact .refl
  | take ht _ ih => exact .take ht ih
  | emit he _ ih => exact .emit (hPQ _ _ he) ih

theorem advance (h : ∃ t, s.here? = some t) : Reads P s s.advance := by
  obtain ⟨t, ht⟩ := h
  exact .take ht .refl

theorem event (h : P s e) : Reads P s (s.emit e) := .emit h .refl

/-- What holds of a reader and is kept by every step holds after the reading. -/
theorem invariant {I : Reader → Prop} (h : Reads P s s') (hs : I s)
    (htake : ∀ s t, s.here? = some t → I s → I s.advance)
    (hemit : ∀ s e, P s e → I s → I (s.emit e)) : I s' := by
  induction h with
  | refl => exact hs
  | take ht _ ih => exact ih (htake _ _ ht hs)
  | emit he _ ih => exact ih (hemit _ _ he hs)

theorem tokens_suffix (h : Reads P s s') : s'.tokens <:+ s.tokens := by
  refine h.invariant (I := fun u => u.tokens <:+ s.tokens) (List.suffix_refl _) ?_
    fun _ _ _ hs => hs
  intro u t _ hu
  rw [tokens_advance]
  exact (List.tail_suffix _).trans hu

theorem final_eq (h : Reads P s s') : s'.final = s.final := by
  refine h.invariant (I := fun u => u.final = s.final) rfl ?_ fun _ _ _ hu => hu
  intro u t _ hu
  rw [← hu]
  unfold Reader.advance
  split <;> rfl

theorem story_subset (h : Reads P s s') : s.story ⊆ s'.story := by
  refine h.invariant (I := fun u => s.story ⊆ u.story) (List.Subset.refl _) ?_ ?_
  · intro u t ht hu
    rwa [story_advance ht]
  · intro u e _ hu f hf
    exact mem_story_emit.2 (.inr (hu hf))

theorem mem_story (h : Reads P s s') (he : e ∈ s'.story) : e ∈ s.story ∨ ∃ u, P u e := by
  refine h.invariant (I := fun u => e ∈ u.story → e ∈ s.story ∨ ∃ u, P u e) .inl ?_ ?_ he
  · intro u t ht hu
    rwa [story_advance ht]
  · intro u f hf hu he'
    rcases mem_story_emit.1 he' with rfl | he'
    · exact .inr ⟨u, hf⟩
    · exact hu he'

theorem trace_prefix (h : Reads P s s') : s.trace.toList <+: s'.trace.toList := by
  refine h.invariant (I := fun u => s.trace.toList <+: u.trace.toList) (List.prefix_refl _) ?_ ?_
  · intro u t _ hu
    refine hu.trans ?_
    unfold Reader.advance
    split <;> simp
  · intro u e _ hu
    exact hu.trans ⟨[e], by simp [Reader.emit]⟩

theorem upcoming_subset (h : Reads P s s') : s'.upcoming ⊆ s.upcoming := by
  refine h.invariant (I := fun u => u.upcoming ⊆ s.upcoming) (List.Subset.refl _) ?_ ?_
  · intro u t ht hu
    obtain ⟨es, -, hes⟩ := advance_events ht
    rw [hes] at hu
    exact List.Subset.trans (List.subset_append_right es _) hu
  · intro u e _ hu
    exact hu

/-- The trace grows by events that were to come and by events that may be added. -/
theorem exists_trace_append (h : Reads P s s') :
    ∃ back, s'.trace.toList = s.trace.toList ++ back ∧
      ∀ e ∈ back, e ∈ s.upcoming ∨ ∃ u, P u e := by
  induction h with
  | refl => exact ⟨[], by simp, by simp⟩
  | @take t u' u ht _ ih =>
    obtain ⟨back, hback, hmem⟩ := ih
    obtain ⟨es, htrace, hes⟩ := advance_events ht
    refine ⟨es ++ back, by rw [hback, htrace, List.append_assoc], ?_⟩
    intro e he
    rw [hes]
    rcases List.mem_append.1 he with he | he
    · exact .inl (List.mem_append_left _ he)
    · exact (hmem e he).imp (List.mem_append_right _) id
  | @emit u e u' he _ ih =>
    obtain ⟨back, hback, hmem⟩ := ih
    refine ⟨e :: back, by simp [hback, Reader.emit], ?_⟩
    intro f hf
    rcases List.mem_cons.1 hf with rfl | hf
    · exact .inr ⟨u, he⟩
    · exact hmem f hf

theorem mem_trace (h : Reads P s s') (he : e ∈ s.trace.toList) : e ∈ s'.trace.toList :=
  h.trace_prefix.subset he

theorem clean (h : Reads P s s') (hs : s'.Clean) : s.Clean :=
  fun c n hc => hs c n (h.story_subset hc)

theorem not_clean {s s' : Reader} {c : Cause} {n : Nat} (h : Reads P (s.report c n) s') :
    ¬ s'.Clean :=
  fun hs => not_clean_report s c n (h.clean hs)

end Reads

/-- A violation of the grammar, on the line of the token ahead or of the token taken last. -/
inductive Complaint (s : Reader) : Event → Prop
  | here : c.isGrammatical = true → Complaint s (.fault c s.line)
  | last : c.isGrammatical = true → Complaint s (.fault c s.lastLine)

/-- A complaint or the declaration of a symbol. -/
inductive Declaring (s : Reader) : Event → Prop
  | complaint : Complaint s e → Declaring s e
  | declare (symbol : Symbol) : Declaring s (.declare symbol)

theorem Reads.declaring (h : Reads Complaint s s') : Reads Declaring s s' :=
  h.mono fun _ _ => .complaint

theorem reads_unexpected (s : Reader) (w : Wanted) : Reads Complaint s (s.unexpected w) :=
  .event (.here rfl)

theorem reads_skipWhile (p : Token → Bool) (s : Reader) : Reads P s (s.skipWhile p) := by
  fun_induction skipWhile p s with
  | case1 s h => exact .refl
  | case2 s t h hp ih => exact .take h ih
  | case3 s t h hp => exact .refl

theorem reads_accept (s : Reader) (code : Int) : Reads P s (s.accept code) := by
  unfold accept
  split
  · exact .advance (here?_of_sees ‹_›)
  · exact .refl

theorem reads_synchronize (s : Reader) : Reads P s s.synchronize :=
  (reads_skipWhile _ s).trans (reads_accept _ _)

theorem reads_expectSemicolon (s : Reader) : Reads Complaint s s.expectSemicolon := by
  unfold expectSemicolon
  split
  · exact .advance (here?_of_sees ‹_›)
  · exact .emit (.last rfl) (reads_synchronize _)

theorem expectSemicolon_sound {s : Reader} (h : s.expectSemicolon.Clean) :
    ∃ c, s.tokens = c :: s.expectSemicolon.tokens ∧ c.is Code.semicolon = true := by
  unfold expectSemicolon at h ⊢
  split
  · rename_i hc
    obtain ⟨c, ts, hs, hsemi⟩ := sees_iff.1 hc
    refine ⟨c, ?_, hsemi⟩
    rw [tokens_advance_of hs, hs]
  · rename_i hc
    rw [if_neg hc] at h
    exact absurd h (Reads.not_clean (reads_synchronize (P := Complaint) _))

theorem reads_skipHeader (depth : Int) (s : Reader) : Reads P s (skipHeader depth s) := by
  fun_induction skipHeader depth s with
  | case1 => exact .refl
  | case2 depth s t h hp ih => exact .take h ih
  | case3 depth s t h _ hp ih => exact .take h ih
  | case4 => exact .refl
  | case5 depth s t h _ _ _ ih => exact .take h ih

theorem reads_skipCompound (levels : Nat) (s : Reader) : Reads P s (skipCompound levels s) := by
  fun_induction skipCompound levels s with
  | case1 => exact .refl
  | case2 levels s t h ho ih => exact .take h ih
  | case3 s t h _ he => exact .advance ⟨t, h⟩
  | case4 s t h _ he levels ih => exact .take h ih
  | case5 levels s t h _ he ih => exact .take h ih

theorem reads_skipBlock (h : s.sees Code.beginWord = true) : Reads Complaint s s.skipBlock :=
  (Reads.advance (here?_of_sees h)).trans
    ((reads_skipCompound _ _).trans (reads_expectSemicolon _))

theorem reads_skipToNested (s : Reader) : Reads P s s.skipToNested :=
  (reads_skipWhile _ s).trans (reads_skipHeader _ _)

theorem reads_skipBodies (outer : Nat) (s : Reader) : Reads Complaint s (skipBodies outer s) := by
  have hlocals (s : Reader) : Reads Complaint s s.skipLocals := reads_skipWhile _ s
  fun_induction skipBodies outer s with
  | case1 s hb => exact (hlocals s).trans (reads_skipBlock hb)
  | case2 s hb outer ih => exact (hlocals s).trans ((reads_skipBlock hb).trans ih)
  | case3 outer s hb he => exact reads_skipToNested s
  | case4 outer s hb he hf ih =>
    have hheader := Reads.advance (P := Complaint) (here?_of_not_atEnd (Bool.eq_false_iff.2 he))
    have hdirective := Reads.advance (P := Complaint) (here?_of_seesForward hf)
    exact (reads_skipToNested s).trans
      (hheader.trans (hdirective.trans ((reads_expectSemicolon _).trans ih)))
  | case5 outer s hb he hf ih =>
    have hheader := Reads.advance (P := Complaint) (here?_of_not_atEnd (Bool.eq_false_iff.2 he))
    exact (reads_skipToNested s).trans (hheader.trans ih)

theorem reads_skipBody (s : Reader) : Reads Complaint s s.skipBody := by
  unfold skipBody
  split
  · exact (Reads.advance (here?_of_seesForward ‹_›)).trans (reads_expectSemicolon _)
  · exact reads_skipBodies 0 s

theorem reads_skipBodyIfThere (s : Reader) : Reads Complaint s s.skipBodyIfThere := by
  unfold skipBodyIfThere
  split
  · exact reads_skipBody s
  · exact .refl

theorem reads_signedNumber (sign : Token) (s : Reader) :
    Reads Complaint s (signedNumber sign s).2 := by
  unfold signedNumber
  split
  · exact reads_unexpected s _
  · rename_i t ht
    split
    · exact .advance ⟨t, ht⟩
    · exact reads_unexpected s _

theorem reads_expression (s : Reader) : Reads Complaint s (expression s).2 := by
  fun_induction expression s with
  | case1 s h => exact reads_unexpected s _
  | case2 s t h hs => exact .take h (reads_signedNumber t _)
  | case3 s t h => exact .advance ⟨t, h⟩
  | case4 s t h => exact .advance ⟨t, h⟩
  | case5 s t h _ _ _ _ s' he ih =>
    rw [he] at ih
    exact .take h ih
  | case6 s t h _ _ _ _ inner s' he hp ih =>
    rw [he] at ih
    exact .take h (ih.trans (.advance (here?_of_sees hp)))
  | case7 s t h _ _ _ _ inner s' he hp ih =>
    rw [he] at ih
    exact .take h (ih.trans (reads_unexpected s' _))
  | case8 s t h => exact reads_unexpected s _

theorem reads_of_expression (h : expression s = (e?, s')) : Reads Complaint s s' := by
  have hr := reads_expression s
  rwa [h] at hr

theorem reads_names (s : Reader) : Reads Complaint s (names s).2 := by
  fun_induction names s with
  | case1 s h => exact reads_unexpected s _
  | case2 s t h hk hc s' hn ih =>
    rw [hn] at ih
    exact .take h ((Reads.advance (here?_of_sees hc)).trans ih)
  | case3 s t h hk hc ts s' hn ih =>
    rw [hn] at ih
    exact .take h ((Reads.advance (here?_of_sees hc)).trans ih)
  | case4 s t h hk hc => exact .advance ⟨t, h⟩
  | case5 s t h hk => exact reads_unexpected s _

theorem reads_of_names (h : names s = (ts?, s')) : Reads Complaint s s' := by
  have hr := reads_names s
  rwa [h] at hr

theorem reads_typeName (s : Reader) : Reads Complaint s s.typeName.2 := by
  unfold typeName
  split
  · exact reads_unexpected s _
  rename_i t ht
  split
  · split
    · exact .advance ⟨t, ht⟩
    · exact reads_unexpected s _
  · exact reads_unexpected s _

theorem reads_typeAnnotation (s : Reader) : Reads Complaint s s.typeAnnotation.2 := by
  unfold typeAnnotation
  split
  · exact (Reads.advance (here?_of_seesKind ‹_›)).trans (reads_typeName _)
  · exact reads_unexpected s _

theorem reads_of_typeAnnotation (h : typeAnnotation s = (type?, s')) : Reads Complaint s s' := by
  have hr := reads_typeAnnotation s
  rwa [h] at hr

theorem reads_declareAll (s : Reader) (symbols : List Symbol) :
    Reads Declaring s (s.declareAll symbols) := by
  induction symbols generalizing s with
  | nil => exact .refl
  | cons symbol symbols ih => exact .emit (.declare symbol) (ih _)

theorem reads_variableLine (s : Reader) : Reads Declaring s (variableLine s).2 := by
  unfold variableLine
  split
  · rename_i s₁ h₁
    exact (reads_of_names h₁).declaring.trans (reads_synchronize s₁)
  · rename_i ts s₁ h₁
    split
    · rename_i s₂ h₂
      have hn := (reads_of_names h₁).trans <| reads_of_typeAnnotation h₂
      exact hn.declaring.trans (reads_synchronize s₂)
    · rename_i type s₂ h₂
      have hn := (reads_of_names h₁).trans <| reads_of_typeAnnotation h₂
      exact hn.declaring.trans
        ((reads_declareAll s₂ _).trans (reads_expectSemicolon _).declaring)

theorem reads_variableSection (s : Reader) : Reads Declaring s (variableSection s).2 := by
  fun_induction variableSection s with
  | case1 s h line more ih => exact (reads_variableLine s).trans ih
  | case2 => exact .refl

theorem reads_paramGroups (s : Reader) : Reads Complaint s (paramGroups s).2.2 := by
  fun_induction paramGroups s with
  | case1 s t hn => exact (reads_accept s _).trans (reads_of_names hn)
  | case2 s ts t hn u ha =>
    have hg := (reads_of_names hn).trans <| reads_of_typeAnnotation ha
    exact (reads_accept s _).trans hg
  | case3 s ts t hn type u ha group hs more complete s' hp ih =>
    have hg := (reads_of_names hn).trans <| reads_of_typeAnnotation ha
    rw [hp] at ih
    exact (reads_accept s _).trans (hg.trans ((Reads.advance (here?_of_sees hs)).trans ih))
  | case4 s ts t hn type u ha group hs hp =>
    have hg := (reads_of_names hn).trans <| reads_of_typeAnnotation ha
    exact (reads_accept s _).trans (hg.trans (.advance (here?_of_sees hp)))
  | case5 s ts t hn type u ha group hs hp =>
    have hg := (reads_of_names hn).trans <| reads_of_typeAnnotation ha
    exact (reads_accept s _).trans (hg.trans (reads_unexpected u _))

theorem reads_params (s : Reader) : Reads Complaint s (params s).2 := by
  have hg := reads_paramGroups s.advance
  unfold params
  split
  · rename_i hl
    have hparen := Reads.advance (P := Complaint) (here?_of_sees hl)
    split
    · exact hparen.trans (.advance (here?_of_sees ‹_›))
    · split
      · rename_i hx
        rw [hx] at hg
        exact hparen.trans hg
      · rename_i ps t hx
        rw [hx] at hg
        exact hparen.trans
          (hg.trans ((reads_skipWhile _ t).trans (reads_accept _ _)))
  · exact .refl

theorem reads_resultType (isFunction : Bool) (s : Reader) :
    Reads Complaint s (resultType isFunction s).2 := by
  unfold resultType
  split
  · exact reads_typeAnnotation s
  · exact .refl

/-- The routine that a header gives, from the place after its name. -/
def headerNode (word name : Token) (s : Reader) : Routine :=
  ⟨word, name.lexeme, s.params.1, (resultType (word.is Code.functionWord) s.params.2).1,
    word.is Code.functionWord⟩

/-- The reader behind the semicolon of a header, where a body can start. -/
def headerEnd (word name : Token) (s : Reader) : Reader :=
  ((resultType (word.is Code.functionWord) s.params.2).2.emit
    (.declare (headerNode word name s).symbol)).expectSemicolon

theorem namedRoutine_eq (word name : Token) (s : Reader) :
    namedRoutine word name s = (headerNode word name s, (headerEnd word name s).skipBodyIfThere) :=
  rfl

theorem reads_headerEnd (word name : Token) (s : Reader) :
    Reads Declaring s (headerEnd word name s) :=
  (reads_params s).declaring.trans ((reads_resultType _ _).declaring.trans
    (.emit (.declare _) (reads_expectSemicolon _).declaring))

theorem reads_namedRoutine (word name : Token) (s : Reader) :
    Reads Declaring s (namedRoutine word name s).2 :=
  (reads_headerEnd word name s).trans (reads_skipBodyIfThere _).declaring

theorem reads_routine (word : Token) (s : Reader) : Reads Declaring s (routine word s).2 := by
  have hs : Reads Declaring s (s.unexpected .routineName).synchronize.skipBodyIfThere :=
    (reads_unexpected s _).declaring.trans
      ((reads_synchronize _).trans (reads_skipBodyIfThere _).declaring)
  unfold routine
  split
  · exact hs
  rename_i t ht
  split
  · exact .take ht (reads_namedRoutine _ _ _)
  · exact hs

theorem reads_declarations (s : Reader) : Reads Declaring s (declarations s).2 := by
  fun_induction declarations s with
  | case1 => exact .refl
  | case2 s t h hv section_ more ih => exact .take h ((reads_variableSection _).trans ih)
  | case3 s t h hv hr first more ih => exact .take h ((reads_routine t _).trans ih)
  | case4 => exact .refl

end Reader

end PascalCheck
