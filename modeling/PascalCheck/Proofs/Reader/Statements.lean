import PascalCheck.Proofs.Reader.Checking

namespace PascalCheck.Reader
set_option autoImplicit true

theorem isBlockEnd_eq_false (h : t.is Code.beginWord = true) : isBlockEnd t = false := by
  have he : t.is Code.endWord = false := Token.is_eq_false h (by decide)
  have hd : t.is Code.dot = false := Token.is_eq_false h (by decide)
  simp [isBlockEnd, he, hd]

theorem statements_stop [Log α] {s : Reader α} (h : ∀ t, s.here? = some t → isBlockEnd t = true) :
    statements s = ([], s) := by
  rw [statements_eq]
  split
  · rfl
  · rename_i t ht
    rw [if_pos (h t ht)]

theorem statements_block [Log α] {s : Reader α} (h : s.here? = some t)
    (hb : t.is Code.beginWord = true) :
    statements s =
      (.block t (statements s.advance).1 ::
          (statements (statements s.advance).2.closeBlock.endStatement).1,
        (statements (statements s.advance).2.closeBlock.endStatement).2) := by
  rw [statements_eq]
  simp [h, hb, isBlockEnd_eq_false hb]

theorem statements_simple [Log α] {s : Reader α} (h : s.here? = some t) (he : isBlockEnd t = false)
    (hb : t.is Code.beginWord = false) :
    statements s =
      ((simpleStatement t s).1.toList ++ (statements (simpleStatement t s).2).1,
        (statements (simpleStatement t s).2).2) := by
  rw [statements_eq]
  simp [h, hb, he]

/-- What holds where a block ends, and of a reader once it holds inside the block or after the
statement that stands there, holds of every reader. -/
theorem statements_induction [Log α] {I : Reader α → Prop}
    (stop : ∀ s, (∀ t, s.here? = some t → isBlockEnd t = true) → I s)
    (block : ∀ s t, s.here? = some t → t.is Code.beginWord = true → I s.advance →
      I (statements s.advance).2.closeBlock.endStatement → I s)
    (simple : ∀ s t, s.here? = some t → isBlockEnd t = false → t.is Code.beginWord = false →
      I (simpleStatement t s).2 → I s) (s : Reader α) : I s := by
  generalize hn : s.remaining = n
  induction n using Nat.strongRecOn generalizing s with
  | ind n ih =>
    subst hn
    by_cases hstop : ∀ t, s.here? = some t → isBlockEnd t = true
    · exact stop s hstop
    · obtain ⟨t, ht, he⟩ : ∃ t, s.here? = some t ∧ isBlockEnd t = false := by
        simpa using hstop
      by_cases hb : t.is Code.beginWord = true
      · have hl := remaining_advance_lt ht
        have hi := remaining_statements_le s.advance
        have hc := remaining_closeBlock_le (statements s.advance).2
        have hend := remaining_endStatement_le (statements s.advance).2.closeBlock
        exact block s t ht hb (ih _ hl _ rfl) (ih _ (by omega) _ rfl)
      · have hl := remaining_simpleStatement_lt ht
        exact simple s t ht he (by simpa using hb) (ih _ hl _ rfl)

theorem Permits.reads_statements (h : Permits I P) (hs : I s) : Reads P s (statements s).2 := by
  induction s using statements_induction with
  | stop s hstop =>
    rw [statements_stop hstop]
    exact .refl
  | block s t ht hb ihin ihout =>
    rw [statements_block ht hb]
    have hin := ihin (h.lasts_advance hs ht)
    have hclose := hin.trans
      (h.reads ((reads_closeBlock _).trans (reads_endStatement _)))
    exact .take ht (hclose.trans (ihout (h.lasts hclose (h.lasts_advance hs ht))))
  | simple s t ht he hb ih =>
    rw [statements_simple ht he hb]
    have hfirst := h.reads_simpleStatement hs ht
    exact hfirst.trans (ih (h.lasts hfirst hs))

theorem reads_statements (hs : Sound s) : Reads Checking s (statements s).2 :=
  permits_checking.reads_statements hs

theorem reads_openBody (s : Reader) : Reads Complaint s s.openBody := by
  unfold openBody
  split
  · exact .advance (here?_of_sees ‹_›)
  · exact .emit (.here rfl) ((reads_skipWhile _ _).trans (reads_accept _ _))

theorem block_eq [Log α] (s : Reader α) :
    s.block = (⟨s.current, (statements s.openBody).1⟩, (statements s.openBody).2.closeBlock) := rfl

theorem Permits.reads_block (h : Permits I P) (hs : I s) : Reads P s s.block.2 := by
  have ho := h.reads (reads_openBody s)
  exact ho.trans ((h.reads_statements (h.lasts ho hs)).trans (h.reads (reads_closeBlock _)))

theorem reads_block (hs : Sound s) : Reads Checking s s.block.2 := permits_checking.reads_block hs

theorem reads_header (s : Reader) : Reads Complaint s s.header.2 := by
  unfold header
  split
  · rename_i hword
    have hfront := Reads.advance (P := Complaint) (here?_of_sees hword)
    have hfail : Reads Complaint s (s.advance.unexpected .programName).synchronize :=
      hfront.trans ((reads_unexpected _ _).trans (reads_synchronize _))
    split
    · exact hfail
    · rename_i t ht
      split
      · exact hfront.trans (.take ht (reads_expectSemicolon _))
      · exact hfail
  · exact .refl

theorem reads_drain (s : Reader) : Reads P s s.drain := reads_skipWhile _ s

theorem Permits.reads_terminator (h : Permits I P) (s : Reader) : Reads P s s.terminator := by
  unfold terminator
  split
  · rename_i hdot
    have hahead : ∃ t, (s.emit .balance).here? = some t := here?_of_sees hdot
    refine .emit h.balance ((Reads.advance hahead).trans ?_)
    dsimp only
    split
    · exact .refl
    · exact (h.reads (reads_unexpected _ _)).trans (reads_drain _)
  · exact .emit (h.complaint (.last rfl)) (reads_drain _)

theorem reads_terminator (s : Reader) : Reads Checking s s.terminator :=
  permits_checking.reads_terminator s

def declared [Log α] (s : Reader α) : Reader α := s.header.2.declarations.2

theorem program_eq [Log α] (s : Reader α) :
    s.program =
      (⟨s.header.1, s.header.2.declarations.1.1, s.header.2.declarations.1.2,
        some s.declared.block.1⟩, s.declared.block.2.terminator) := rfl

theorem reads_declared (s : Reader) : Reads Declaring s s.declared :=
  (reads_header s).declaring.trans (reads_declarations _)

theorem Permits.reads_body {s : Reader} (h : Permits I P) (hs : I s.declared) :
    Reads P s.declared s.program.2 :=
  (h.reads_block hs).trans (h.reads_terminator _)

theorem reads_body (hs : Sound s) : Reads Checking s.declared s.program.2 :=
  permits_checking.reads_body ((reads_declared s).sound hs)

theorem tokens_drain (s : Reader) : s.drain.tokens = [] := by
  rw [← here?_eq_none_iff]
  cases h : s.drain.here? with
  | none => rfl
  | some t => exact absurd (here?_skipWhile h) (by simp)

theorem tokens_terminator (s : Reader) : s.terminator.tokens = [] := by
  unfold terminator
  split
  · dsimp only
    split
    · rename_i h
      exact atEnd_iff.1 h
    · exact tokens_drain _
  · exact tokens_drain _

theorem tokens_program (s : Reader) : s.program.2.tokens = [] := tokens_terminator _

theorem story_of_tokens_nil {s : Reader} (h : s.tokens = []) : s.story = s.trace.toList := by
  have hr : s.rest = [] := by simpa [tokens] using h
  simp [story, upcoming, hr]

theorem story_program (s : Reader) : s.program.2.story = s.program.2.trace.toList :=
  story_of_tokens_nil (tokens_program s)

end PascalCheck.Reader
