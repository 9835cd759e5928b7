import PascalCheck.Proofs.Reader.Sound
import PascalCheck.Proofs.Reader.Yields
import PascalCheck.Tree.Program

namespace PascalCheck
set_option autoImplicit true

namespace Reader

def Named (s : Reader) (name : String) (line : Nat) : Prop :=
  ∃ t, .scanned t ∈ s.trace.toList ∧ t.kind = .ident ∧ t.lexeme = name ∧ t.line = line

/-- What may be added while statements are read. -/
inductive Checking (s : Reader) : Event → Prop
  | complaint : Complaint s e → Checking s e
  | literal : .literal l n ∈ s.trace.toList → Checking s (.literal l n)
  | use : s.Named name n → Checking s (.use name n)
  | assign : .literal l n ∈ s.trace.toList → s.Named name m → Checking s (.assign name l n)
  | assignName : s.Named target n → s.Named source m → Checking s (.assignName target source n)
  | balance : Checking s .balance

theorem Reads.checking (h : Reads Complaint s s') : Reads Checking s s' :=
  h.mono fun _ _ => .complaint

theorem Named.reads (h : Named s name n) (hr : Reads P s s') : s'.Named name n := by
  obtain ⟨t, ht, hk, hn, hl⟩ := h
  exact ⟨t, hr.mem_trace ht, hk, hn, hl⟩

def afterMinus (s : Reader) : Bool := s.prev.any (·.is Code.minus)

theorem afterMinus_advance {s : Reader} (h : s.here? = some t) :
    s.advance.afterMinus = t.is Code.minus := by
  rw [afterMinus, prev_advance h]
  rfl

theorem afterMinus_advance_of_sees {s : Reader} {code : Int} (h : s.sees code = true)
    (hne : code ≠ Code.minus) : s.advance.afterMinus = false := by
  obtain ⟨t, ts, hs, ht⟩ := sees_iff.1 h
  rw [afterMinus_advance (here?_of_tokens hs)]
  exact Token.is_eq_false ht hne

end Reader

/-- The value of an expression was checked or taken where it was read. -/
def Expr.Known (s : Reader) (e : Expr) : Prop :=
  match e.unparen with
  | .number t text isReal => .literal ⟨text, isReal⟩ t.line ∈ s.trace.toList
  | .ident id => s.Named id.name id.token.line
  | _ => True

theorem Expr.Known.reads (h : Expr.Known s e) (hr : Reader.Reads P s s') : Expr.Known s' e := by
  unfold Expr.Known at h ⊢
  split
  · rename_i he
    rw [he] at h
    exact hr.mem_trace h
  · rename_i he
    rw [he] at h
    exact Reader.Named.reads h hr
  · trivial

namespace Reader

theorem Sound.literal_seen (h : Sound s) (hs : s.here? = some t) (hk : t.kind = .number) :
    .literal (t.literal s.afterMinus) t.line ∈ s.trace.toList := by
  apply (h.seen_of_here? hs).2
  simp [Token.literalEvents, hk, afterMinus]

theorem Sound.named (h : Sound s) (hs : s.here? = some t) (hk : t.kind = .ident) :
    s.Named t.lexeme t.line :=
  ⟨t, (h.seen_of_here? hs).1, hk, rfl, rfl⟩

theorem unparen_paren (h : e ≠ .absent) : (Expr.paren t e).unparen = e.unparen := by
  cases e with
  | absent => exact absurd rfl h
  | _ => rfl

namespace YieldsExpr

theorem ne_absent (h : YieldsExpr s e s') : e ≠ .absent := by
  cases h <;> exact Expr.noConfusion

theorem known (h : YieldsExpr s e s') (hs : Sound s) (hm : s.afterMinus = false) :
    e.Known s' := by
  induction h with
  | signed hsign _ ht hk =>
    have hl := hs.advance.literal_seen ht hk
    rw [afterMinus_advance hsign] at hl
    exact (Reads.advance (P := Complaint) ⟨_, ht⟩).mem_trace hl
  | number ht hk =>
    have hl := hs.literal_seen ht hk
    rw [hm] at hl
    exact (Reads.advance (P := Complaint) ⟨_, ht⟩).mem_trace hl
  | name ht hk => exact (hs.named ht hk).reads (Reads.advance (P := Complaint) ⟨_, ht⟩)
  | paren ht hl hinner hr ih =>
    -- A minus is taken together with its number, so what stands before the inner one is no minus.
    have hm' := afterMinus_advance ht
    rw [Token.is_eq_false hl (by decide)] at hm'
    unfold Expr.Known
    rw [unparen_paren hinner.ne_absent]
    exact (ih hs.advance hm').reads (Reads.advance (P := Complaint) (here?_of_sees hr))

end YieldsExpr

theorem reads_checkOperand (h : Expr.Known s e) : Reads Checking s (s.checkOperand e) := by
  unfold Expr.Known at h
  unfold checkOperand
  split
  · rename_i he
    rw [he] at h
    exact .event (.literal h)
  · rename_i he
    rw [he] at h
    exact .event (.use h)
  · exact .refl

theorem reads_checkAssignment (ht : s.Named target.name target.token.line)
    (hv : Expr.Known s value) : Reads Checking s (s.checkAssignment target value) := by
  unfold Expr.Known at hv
  unfold checkAssignment
  split
  · rename_i he
    rw [he] at hv
    exact .event (.assign hv ht)
  · rename_i he
    rw [he] at hv
    exact .event (.assignName ht hv)
  · exact .refl

/-- The events that may be added allow for the reading of statements by every reader with a property
that lasts: complaints, and the checks of an expression behind the place where it starts. -/
structure Permits (I : Reader → Prop) (P : Reader → Event → Prop) : Prop where
  lasts : Reads P s s' → I s → I s'
  complaint : Complaint s e → P s e
  balance : P s .balance
  operand : I s → s.afterMinus = false → expression s = (some e, s') →
    Reads P s' (s'.checkOperand e)
  assignment : I s → s.here? = some t → t.kind = .ident → s.advance.here? = some a →
    a.is Code.assign = true → expression s.advance.advance = (some value, s') →
    Reads P s' (s'.checkAssignment ⟨t, t.lexeme⟩ value)

theorem permits_checking : Permits Sound Checking where
  lasts := Reads.sound
  complaint := .complaint
  balance := .balance
  operand hs hm he := reads_checkOperand ((yieldsExpr he).known hs hm)
  assignment {s t a value s'} hs ht hk ha hassign he := by
    have hm : s.advance.advance.afterMinus = false := by
      rw [afterMinus_advance ha]
      exact Token.is_eq_false hassign (by decide)
    have hv := (yieldsExpr he).known hs.advance.advance hm
    have hr : Reads Complaint s s' := .take ht (.take ha (reads_of_expression he))
    exact reads_checkAssignment ((hs.named ht hk).reads hr) hv

theorem reads_endStatement (s : Reader) : Reads Complaint s s.endStatement := by
  unfold endStatement
  split
  · exact .advance (here?_of_sees ‹_›)
  split
  · exact .refl
  · exact .emit (.last rfl) (reads_synchronize _)

theorem reads_closeBlock (s : Reader) : Reads Complaint s s.closeBlock := by
  unfold closeBlock
  split
  · exact .advance (here?_of_sees ‹_›)
  · exact .event (.last rfl)

namespace Permits

theorem reads (h : Permits I P) (hr : Reads Complaint s s') : Reads P s s' :=
  hr.mono fun _ _ => h.complaint

theorem lasts_advance (h : Permits I P) (hs : I s) (ht : s.here? = some t) : I s.advance :=
  h.lasts (.advance ⟨t, ht⟩) hs

theorem reads_assignment (h : Permits I P) (hs : I s) (ht : s.here? = some t)
    (hk : t.kind = .ident) : Reads P s (Reader.assignment ⟨t, t.lexeme⟩ s.advance).2 := by
  have hfail : Reads P s (s.advance.report .missingAssign t.line).synchronize := by
    have hl : s.advance.lastLine = t.line := by
      rw [lastLine, prev_advance ht]
      rfl
    rw [← hl]
    exact .take ht (.emit (h.complaint (.last rfl)) (reads_synchronize _))
  unfold Reader.assignment
  split
  · exact hfail
  · rename_i a ha
    split
    · rename_i hassign
      split
      · rename_i s' he
        have hr := h.reads (reads_of_expression he)
        exact .take ht (.take ha (hr.trans (reads_synchronize s')))
      · rename_i value s' he
        have hr := h.reads (reads_of_expression he)
        have hcheck := h.assignment hs ht hk ha hassign he
        exact .take ht (.take ha (hr.trans (hcheck.trans (h.reads (reads_endStatement _)))))
    · exact hfail

theorem reads_argument (h : Permits I P) (hs : I s) (hm : s.afterMinus = false)
    (he : expression s = (some e, s')) : Reads P s (s'.checkOperand e) :=
  (h.reads (reads_of_expression he)).trans (h.operand hs hm he)

theorem reads_argument_comma (h : Permits I P) (hs : I s) (hm : s.afterMinus = false)
    (he : expression s = (some e, s')) (hc : (s'.checkOperand e).sees Code.comma = true) :
    Reads P s (s'.checkOperand e).advance :=
  (h.reads_argument hs hm he).trans (.advance (here?_of_sees hc))

theorem reads_arguments (h : Permits I P) (hs : I s) (hm : s.afterMinus = false) :
    Reads P s (arguments s).2 := by
  fun_induction arguments s with
  | case1 s t he => exact h.reads (reads_of_expression he)
  | case2 s e t he hc t' ha ih =>
    have hcomma := h.reads_argument_comma hs hm he hc
    have hi := ih (h.lasts hcomma hs) (afterMinus_advance_of_sees hc (by decide))
    rw [ha] at hi
    exact hcomma.trans hi
  | case3 s e t he hc es t' ha ih =>
    have hcomma := h.reads_argument_comma hs hm he hc
    have hi := ih (h.lasts hcomma hs) (afterMinus_advance_of_sees hc (by decide))
    rw [ha] at hi
    exact hcomma.trans hi
  | case4 s e t he hc => exact h.reads_argument hs hm he

theorem reads_output (h : Permits I P) (hs : I s) (word : Token) :
    Reads P s (output word s).2 := by
  unfold output
  split
  · rename_i hl
    have hparen : Reads P s s.advance := .advance (here?_of_sees hl)
    have ha := h.reads_arguments (h.lasts hparen hs) (afterMinus_advance_of_sees hl (by decide))
    split
    · rename_i hr
      exact hparen.trans
        ((Reads.advance (here?_of_sees hr)).trans (h.reads (reads_endStatement _)))
    · split
      · rename_i s' hx
        rw [hx] at ha
        exact hparen.trans (ha.trans (reads_synchronize s'))
      · rename_i args s' hx
        rw [hx] at ha
        refine hparen.trans (ha.trans ?_)
        split
        · rename_i hr
          exact (Reads.advance (here?_of_sees hr)).trans (h.reads (reads_endStatement _))
        · exact (h.reads (reads_unexpected s' _)).trans (reads_synchronize _)
  · exact h.reads (reads_endStatement s)

theorem reads_simpleStatement (h : Permits I P) (hs : I s) (ht : s.here? = some t) :
    Reads P s (simpleStatement t s).2 := by
  unfold simpleStatement
  split
  · exact .advance ⟨t, ht⟩
  split
  · rename_i hk
    exact h.reads_assignment hs ht hk
  split
  · exact .take ht (h.reads_output (h.lasts_advance hs ht) t)
  · have hahead : (s.unexpected .statement).here? = some t := ht
    exact (h.reads (reads_unexpected s _)).trans (.take hahead (reads_synchronize _))

end Permits

theorem reads_argument (hs : Sound s) (hm : s.afterMinus = false)
    (h : expression s = (some e, s')) : Reads Checking s (s'.checkOperand e) :=
  permits_checking.reads_argument hs hm h

theorem reads_simpleStatement (hs : Sound s) (h : s.here? = some t) :
    Reads Checking s (simpleStatement t s).2 :=
  permits_checking.reads_simpleStatement hs h

end Reader

end PascalCheck
