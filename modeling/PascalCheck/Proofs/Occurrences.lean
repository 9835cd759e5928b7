import PascalCheck.Proofs.Grammar.Statements

namespace PascalCheck
set_option autoImplicit true

/-- A place of a tree where names are used. -/
inductive Occurrence where
  | assign (target : Ident) (value : Expr)
  | argument (value : Expr)

mutual

def Stmt.occurrences : Stmt → List Occurrence
  | .assign _ target value => [.assign target value]
  | .writeln _ args => args.map .argument
  | .block _ body => Stmt.occurrencesAll body

def Stmt.occurrencesAll : List Stmt → List Occurrence
  | [] => []
  | s :: ss => s.occurrences ++ Stmt.occurrencesAll ss

end

/-- The places of a program where names are used, at any depth. -/
def Program.occurrences (p : Program) : List Occurrence :=
  p.body.elim [] fun b => Stmt.occurrencesAll b.body

theorem Stmt.occurrencesAll_append (ss ss' : List Stmt) :
    occurrencesAll (ss ++ ss') = occurrencesAll ss ++ occurrencesAll ss' := by
  induction ss with
  | nil => rfl
  | cons s ss ih => simp [occurrencesAll, ih]

def Occurrence.event? : Occurrence → Option Event
  | .assign target value =>
    match value.unparen with
    | .number t text isReal => some (.assign target.name ⟨text, isReal⟩ t.line)
    | .ident source => some (.assignName target.name source.name target.token.line)
    | _ => none
  | .argument value =>
    match value.unparen with
    | .ident id => some (.use id.name id.token.line)
    | _ => none

namespace Reader

/-- Between two readers the names at some places are checked, and if nothing is reported, no other
names are. -/
structure Covers (s : Reader) (os : List Occurrence) (s' : Reader) : Prop where
  story_subset : s.story ⊆ s'.story
  checked : ∀ o ∈ os, ∀ e ∈ o.event?, e ∈ s'.story
  only : s'.Clean → ∀ e ∈ s'.story, e.isNameCheck = true →
    e ∈ s.story ∨ ∃ o ∈ os, e ∈ o.event?

namespace Covers

theorem clean (h : Covers s os s') (hs : s'.Clean) : s.Clean :=
  fun c n hc => hs c n (h.story_subset hc)

theorem trans (h : Covers s os s') (k : Covers s' os' s'') : Covers s (os ++ os') s'' := by
  refine ⟨List.Subset.trans h.story_subset k.story_subset, ?_, ?_⟩
  · intro o ho e he
    rcases List.mem_append.1 ho with ho | ho
    · exact k.story_subset (h.checked o ho e he)
    · exact k.checked o ho e he
  · intro hs e he hname
    rcases k.only hs e he hname with he | ⟨o, ho, he⟩
    · rcases h.only (k.clean hs) e he hname with he | ⟨o, ho, he⟩
      · exact .inl he
      · exact .inr ⟨o, List.mem_append_left _ ho, he⟩
    · exact .inr ⟨o, List.mem_append_right _ ho, he⟩

theorem of_reads (h : Reads Complaint s s') : Covers s [] s' := by
  refine ⟨h.story_subset, by simp, ?_⟩
  intro _ e he hname
  rcases h.mem_story he with he | ⟨u, hu⟩
  · exact .inl he
  · cases hu with
    | here hc => cases hname
    | last hc => cases hname

/-- Where something is reported, a statement may be left out of the tree. -/
theorem of_not_clean (h : s.story ⊆ s'.story) (hs : ¬ s'.Clean) : Covers s [] s' :=
  ⟨h, by simp, fun hs' => absurd hs' hs⟩

theorem emit (s : Reader) (ho : ∀ f ∈ o.event?, f = e)
    (hname : e.isNameCheck = true → e ∈ o.event?) : Covers s [o] (s.emit e) := by
  refine ⟨fun f hf => mem_story_emit.2 (.inr hf), ?_, ?_⟩
  · intro o' ho' f hf
    obtain rfl := List.mem_singleton.1 ho'
    exact mem_story_emit.2 (.inl (ho f hf))
  · intro _ f hf hn
    rcases mem_story_emit.1 hf with rfl | hf
    · exact .inr ⟨o, List.mem_singleton_self _, hname hn⟩
    · exact .inl hf

theorem skip (s : Reader) (ho : o.event? = none) : Covers s [o] s := by
  refine ⟨List.Subset.refl _, ?_, fun _ e he _ => .inl he⟩
  intro o' ho' f hf
  obtain rfl := List.mem_singleton.1 ho'
  rw [ho] at hf
  cases hf

end Covers

theorem covers_checkOperand (s : Reader) (e : Expr) :
    Covers s [.argument e] (s.checkOperand e) := by
  cases he : e.unparen with
  | number t text isReal =>
    simp only [checkOperand, he]
    exact .emit s (by simp [Occurrence.event?, he]) (by simp [Event.isNameCheck])
  | ident id =>
    simp only [checkOperand, he]
    exact .emit s (by simp [Occurrence.event?, he]) (by simp [Occurrence.event?, he])
  | absent =>
    simp only [checkOperand, he]
    exact .skip s (by simp [Occurrence.event?, he])
  | paren t inner =>
    simp only [checkOperand, he]
    exact .skip s (by simp [Occurrence.event?, he])

theorem covers_checkAssignment (s : Reader) (target : Ident) (value : Expr) :
    Covers s [.assign target value] (s.checkAssignment target value) := by
  cases he : value.unparen with
  | number t text isReal =>
    simp only [checkAssignment, he]
    exact .emit s (by simp [Occurrence.event?, he]) (by simp [Occurrence.event?, he])
  | ident id =>
    simp only [checkAssignment, he]
    exact .emit s (by simp [Occurrence.event?, he]) (by simp [Occurrence.event?, he])
  | absent =>
    simp only [checkAssignment, he]
    exact .skip s (by simp [Occurrence.event?, he])
  | paren t inner =>
    simp only [checkAssignment, he]
    exact .skip s (by simp [Occurrence.event?, he])

def occurrencesOf (st? : Option Stmt) : List Occurrence := Stmt.occurrencesAll st?.toList

theorem covers_assignment (target : Ident) (s : Reader) :
    Covers s (occurrencesOf (assignment target s).1) (assignment target s).2 := by
  have hfail : Covers s [] (s.report .missingAssign target.token.line).synchronize := by
    refine .of_not_clean ?_ (Reads.not_clean (reads_synchronize (P := Complaint) _))
    intro e he
    exact (reads_synchronize (P := Complaint) _).story_subset (mem_story_emit.2 (.inr he))
  unfold assignment
  split
  · exact hfail
  · rename_i a ha
    split
    · split
      · rename_i s' he
        have hx := reads_of_expression he
        exact .of_reads (.take ha (hx.trans (reads_synchronize s')))
      · rename_i value s' he
        have h₁ := Covers.of_reads (.take ha (reads_of_expression he))
        have h₂ := covers_checkAssignment s' target value
        have h₃ := Covers.of_reads (reads_endStatement (s'.checkAssignment target value))
        exact h₁.trans (h₂.trans h₃)
    · exact hfail

theorem story_subset_checkOperand (s : Reader) (e : Expr) : s.story ⊆ (s.checkOperand e).story :=
  (covers_checkOperand s e).story_subset

theorem story_subset_arguments (s : Reader) : s.story ⊆ (arguments s).2.story := by
  fun_induction arguments s with
  | case1 s t he =>
    exact (reads_of_expression he).story_subset
  | case2 s e t he hc t' ha ih =>
    have hx := reads_of_expression he
    rw [ha, story_advance_of_sees hc] at ih
    exact List.Subset.trans hx.story_subset
      (List.Subset.trans (story_subset_checkOperand t e) ih)
  | case3 s e t he hc es t' ha ih =>
    have hx := reads_of_expression he
    rw [ha, story_advance_of_sees hc] at ih
    exact List.Subset.trans hx.story_subset
      (List.Subset.trans (story_subset_checkOperand t e) ih)
  | case4 s e t he hc =>
    have hx := reads_of_expression he
    exact List.Subset.trans hx.story_subset (story_subset_checkOperand t e)

theorem YieldsArguments.covers (h : YieldsArguments s es s') :
    Covers s (es.map .argument) s' := by
  induction h with
  | last he => exact (Covers.of_reads (reads_of_expression he)).trans (covers_checkOperand _ _)
  | cons he hc _ ih =>
    have hx := Covers.of_reads (reads_of_expression he)
    have hcomma := Covers.of_reads (.advance (here?_of_sees hc))
    exact hx.trans ((covers_checkOperand _ _).trans (hcomma.trans ih))

theorem covers_output (word : Token) (s : Reader) :
    Covers s (occurrencesOf (output word s).1) (output word s).2 := by
  unfold output
  split
  · rename_i hl
    have hparen := Reads.advance (P := Complaint) (here?_of_sees hl)
    split
    · rename_i hr
      exact .of_reads
        (hparen.trans ((Reads.advance (here?_of_sees hr)).trans (reads_endStatement _)))
    · have hsub := story_subset_arguments s.advance
      rw [story_advance_of_sees hl] at hsub
      split
      · rename_i s' ha
        rw [ha] at hsub
        have hsync := reads_synchronize (P := Complaint) s'
        refine .of_not_clean (List.Subset.trans hsub hsync.story_subset) ?_
        exact fun hs => arguments_not_clean ha (hsync.clean hs)
      · rename_i args s' ha
        rw [ha] at hsub
        split
        · rename_i hr
          have h₂ := Covers.of_reads
            ((Reads.advance (here?_of_sees hr)).trans (reads_endStatement s'.advance))
          have h₃ := (Covers.of_reads hparen).trans ((yieldsArguments ha).covers.trans h₂)
          simpa [occurrencesOf, Stmt.occurrencesAll, Stmt.occurrences] using h₃
        · refine .of_not_clean ?_ (Reads.not_clean (reads_synchronize (P := Complaint) _))
          have hfail := (reads_unexpected s' .rightParen).trans (reads_synchronize _)
          exact List.Subset.trans hsub hfail.story_subset
  · exact .of_reads (reads_endStatement s)

theorem covers_simpleStatement {s : Reader} (h : s.here? = some t) :
    Covers s (occurrencesOf (simpleStatement t s).1) (simpleStatement t s).2 := by
  have ha : Covers s [] s.advance := .of_reads (.advance ⟨t, h⟩)
  unfold simpleStatement
  split
  · exact ha
  split
  · exact ha.trans (covers_assignment _ _)
  split
  · exact ha.trans (covers_output _ _)
  · have hahead : (s.unexpected .statement).here? = some t := h
    exact .of_reads ((reads_unexpected s _).trans (.take hahead (reads_synchronize _)))

theorem covers_statements (s : Reader) :
    Covers s (Stmt.occurrencesAll (statements s).1) (statements s).2 := by
  induction s using statements_induction with
  | stop s h =>
    rw [statements_stop h]
    exact .of_reads .refl
  | block s t h hb ihin ihout =>
    rw [statements_block h hb]
    have ha : Covers s [] s.advance := .of_reads (.advance ⟨t, h⟩)
    have hclose := Covers.of_reads ((reads_closeBlock (statements s.advance).2).trans
      (reads_endStatement _))
    exact ha.trans (ihin.trans (hclose.trans ihout))
  | simple s t h he hb ih =>
    rw [statements_simple h he hb, Stmt.occurrencesAll_append]
    exact (covers_simpleStatement h).trans ih

theorem covers_block (s : Reader) :
    Covers s (Stmt.occurrencesAll s.block.1.body) s.block.2 := by
  rw [block_eq]
  have hopen := Covers.of_reads (reads_openBody s)
  have hclose := Covers.of_reads (reads_closeBlock (statements s.openBody).2)
  have h := hopen.trans ((covers_statements s.openBody).trans hclose)
  simpa using h

end Reader

end PascalCheck
