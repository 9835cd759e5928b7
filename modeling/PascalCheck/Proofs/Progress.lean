import Mathlib.Data.Nat.PSub
import PascalCheck.Proofs.Silence

namespace PascalCheck
set_option autoImplicit true

namespace Reader

/-- A loop makes turns until none is left, and each turn takes a token at least. -/
structure IsLoop (reader : α → Reader) (turn? : α → Option α) (loop : α → Reader) : Prop where
  unfolds : ∀ a, loop a = (turn? a).elim (reader a) loop
  takes : ∀ a b, turn? a = some b → (reader b).remaining < (reader a).remaining

def turnAt (reader : α → Reader) (turn? : Token → α → Option α) (a : α) : Option α :=
  (reader a).here?.bind fun t => turn? t a

theorem IsLoop.of_token {reader : α → Reader} {turn? : Token → α → Option α} {loop : α → Reader}
    (hstop : ∀ a, (reader a).here? = none → loop a = reader a)
    (hturn : ∀ a t, (reader a).here? = some t → loop a = (turn? t a).elim (reader a) loop)
    (htakes : ∀ a b t, (reader a).here? = some t → turn? t a = some b →
      (reader b).remaining < (reader a).remaining) : IsLoop reader (turnAt reader turn?) loop := by
  constructor
  · intro a
    rw [turnAt]
    cases ha : (reader a).here? with
    | none => exact hstop a ha
    | some t => exact hturn a t ha
  · intro a b h
    obtain ⟨t, ht, hb⟩ := Option.bind_eq_some_iff.1 h
    exact htakes a b t ht hb

/-- Reads one statement from the token it starts with: a block with what ends it, or a statement
that is no block. -/
def statement (t : Token) (s : Reader) : Option Stmt × Reader :=
  if t.is Code.beginWord then
    (some (.block t (statements s.advance).1),
      (statements s.advance).2.closeBlock.endStatement)
  else simpleStatement t s

theorem statements_cons (h : here? s = some t) (he : isBlockEnd t = false) :
    statements s =
      ((statement t s).1.toList ++ (statements (statement t s).2).1,
        (statements (statement t s).2).2) := by
  unfold statement
  split
  · rename_i hb
    rw [statements_block h hb]
    rfl
  · rename_i hb
    rw [statements_simple h he (by simpa using hb)]

theorem remaining_statement_lt (h : here? s = some t) :
    (statement t s).2.remaining < s.remaining := by
  unfold statement
  split
  · calc (statements s.advance).2.closeBlock.endStatement.remaining
        ≤ (statements s.advance).2.closeBlock.remaining := remaining_endStatement_le _
      _ ≤ (statements s.advance).2.remaining := remaining_closeBlock_le _
      _ ≤ s.advance.remaining := remaining_statements_le _
      _ < s.remaining := remaining_advance_lt h
  · exact remaining_simpleStatement_lt h

def statementTurn? (t : Token) (s : Reader) : Option Reader :=
  if isBlockEnd t then none else some (statement t s).2

theorem isLoop_statements : IsLoop id (turnAt id statementTurn?) fun s => (statements s).2 := by
  apply IsLoop.of_token
  · intro s hs
    have hstop : ∀ t, s.here? = some t → isBlockEnd t = true := by
      intro t ht
      rw [id, ht] at hs
      cases hs
    rw [statements_stop hstop]
    rfl
  · intro s t hs
    unfold statementTurn?
    split
    · rename_i he
      have hstop : ∀ u, s.here? = some u → isBlockEnd u = true := by
        intro u hu
        obtain rfl : t = u := Option.some.inj (hs.symm.trans hu)
        exact he
      rw [statements_stop hstop]
      rfl
    · rename_i he
      have hrest := congrArg Prod.snd (statements_cons (s := s) hs (by simpa using he))
      exact hrest
  · intro s s' t hs h
    unfold statementTurn? at h
    split at h
    · cases h
    · cases h
      exact remaining_statement_lt hs

def lineTurn? (s : Reader) : Option Reader :=
  if s.seesKind .ident then some (variableLine s).2 else none

theorem isLoop_variableSection : IsLoop id lineTurn? fun s => (variableSection s).2 := by
  constructor
  · intro s
    rw [variableSection, lineTurn?]
    split
    · rfl
    · rfl
  · intro s s' h
    unfold lineTurn? at h
    split at h
    · cases h
      exact remaining_variableLine_lt ‹_›
    · cases h

def declarationTurn? (t : Token) (s : Reader) : Option Reader :=
  if t.is Code.varWord then some (variableSection s.advance).2
  else if t.is Code.functionWord || t.is Code.procedureWord then some (routine t s.advance).2
  else none

theorem isLoop_declarations :
    IsLoop id (turnAt id declarationTurn?) fun s => (declarations s).2 := by
  apply IsLoop.of_token
  · intro s hs
    rw [declarations]
    split
    · rfl
    · simp_all
  · intro s t hs
    rw [declarations]
    split
    · simp_all
    · rename_i u hu
      obtain rfl : t = u := Option.some.inj (hs.symm.trans hu)
      unfold declarationTurn?
      split
      · rfl
      split
      · rfl
      · rfl
  · intro s s' t hs h
    have hword := remaining_advance_lt hs
    unfold declarationTurn? at h
    split at h
    · cases h
      exact Nat.lt_of_le_of_lt (remaining_variableSection_le _) hword
    split at h
    · cases h
      exact Nat.lt_of_le_of_lt (remaining_routine_le _ _) hword
    · cases h

def skipTurn? (p : Token → Bool) (t : Token) (s : Reader) : Option Reader :=
  if p t then some s.advance else none

theorem isLoop_skipWhile (p : Token → Bool) :
    IsLoop id (turnAt id (skipTurn? p)) (skipWhile p) := by
  apply IsLoop.of_token
  · intro s hs
    rw [skipWhile]
    split
    · rfl
    · simp_all
  · intro s t hs
    rw [skipWhile]
    split
    · simp_all
    · rename_i u hu
      obtain rfl : t = u := Option.some.inj (hs.symm.trans hu)
      unfold skipTurn?
      split
      · rfl
      · rfl
  · intro s s' t hs h
    unfold skipTurn? at h
    split at h
    · cases h
      exact remaining_advance_lt hs
    · cases h

/-- One token of the header of a nested routine, with the depth of its parentheses. -/
def headerTurn? (t : Token) (a : Int × Reader) : Option (Int × Reader) :=
  if t.is Code.leftParen then some (a.1 + 1, a.2.advance)
  else if t.is Code.rightParen then some (a.1 - 1, a.2.advance)
  else if t.is Code.semicolon && a.1 ≤ 0 then none
  else some (a.1, a.2.advance)

theorem isLoop_skipHeader :
    IsLoop Prod.snd (turnAt Prod.snd headerTurn?) fun a => skipHeader a.1 a.2 := by
  apply IsLoop.of_token
  · intro a ha
    rw [skipHeader]
    split
    · rfl
    · simp_all
  · intro a t ha
    rw [skipHeader]
    split
    · simp_all
    · rename_i u hu
      obtain rfl : t = u := Option.some.inj (ha.symm.trans hu)
      unfold headerTurn?
      split
      · rfl
      split
      · rfl
      split
      · rfl
      · rfl
  · intro a b t ha h
    have hlt := remaining_advance_lt ha
    unfold headerTurn? at h
    split at h
    · cases h
      exact hlt
    split at h
    · cases h
      exact hlt
    split at h
    · cases h
    · cases h
      exact hlt

/-- One token of a compound statement, with the levels open inside it, and none behind its end. -/
def compoundTurn? (t : Token) (a : Option Nat × Reader) : Option (Option Nat × Reader) :=
  a.1.map fun levels =>
    if opensLevel t then (some (levels + 1), a.2.advance)
    else if t.is Code.endWord then (levels.ppred, a.2.advance)
    else (some levels, a.2.advance)

theorem isLoop_skipCompound : IsLoop Prod.snd (turnAt Prod.snd compoundTurn?)
    fun a => a.1.elim a.2 fun levels => skipCompound levels a.2 := by
  apply IsLoop.of_token
  · rintro ⟨_ | levels, s⟩ hs
    · rfl
    · simp only [Option.elim_some]
      rw [skipCompound.eq_def]
      split
      · rfl
      · simp_all
  · rintro ⟨_ | levels, s⟩ t hs
    · rfl
    · simp only [Option.elim_some]
      rw [skipCompound.eq_def]
      split
      · simp_all
      · rename_i u hu
        obtain rfl : t = u := Option.some.inj (hs.symm.trans hu)
        simp only [compoundTurn?, Option.map_some, Option.elim_some]
        split
        · rfl
        split
        · cases levels <;> rfl
        · rfl
  · rintro ⟨_ | levels, s⟩ b t hs h
    · cases h
    · have hlt := remaining_advance_lt hs
      simp only [compoundTurn?, Option.map_some, Option.some.injEq] at h
      subst h
      split
      · exact hlt
      split
      · exact hlt
      · exact hlt

/-- One step through the bodies of nested routines, with as many of them begun: to the end of a
compound statement, to a nested body, past a directive, or to the end of the input. -/
def bodyTurn? (a : Option Nat × Reader) : Option (Option Nat × Reader) :=
  a.1.bind fun outer =>
    if a.2.atEnd then none
    else if a.2.skipLocals.sees Code.beginWord then some (outer.ppred, a.2.skipLocals.skipBlock)
    else if a.2.skipToNested.atEnd then some (none, a.2.skipToNested)
    else if a.2.skipToNested.advance.seesForward then
      some (some outer, a.2.skipToNested.advance.advance.expectSemicolon)
    else some (some (outer + 1), a.2.skipToNested.advance)

theorem skipToNested_of_atEnd (h : here? s = none) : s.skipLocals = s ∧ s.skipToNested = s := by
  have hlocals : s.skipLocals = s := by
    refine ((isLoop_skipWhile _).unfolds s).trans ?_
    rw [turnAt, id, h]
    rfl
  refine ⟨hlocals, ?_⟩
  rw [skipToNested, hlocals]
  refine (isLoop_skipHeader.unfolds (0, s)).trans ?_
  rw [turnAt, h]
  rfl

theorem isLoop_skipBodies : IsLoop Prod.snd bodyTurn?
    fun a => a.1.elim a.2 fun outer => skipBodies outer a.2 := by
  constructor
  · rintro ⟨_ | outer, s⟩
    · rfl
    · simp only [bodyTurn?, Option.bind_some, Option.elim_some]
      rw [skipBodies.eq_def]
      by_cases hend : s.atEnd = true
      · have hnone : s.here? = none := here?_eq_none_iff.2 (atEnd_iff.1 hend)
        obtain ⟨hlocals, hnested⟩ := skipToNested_of_atEnd hnone
        have hbegin : ¬ s.sees Code.beginWord = true := by simp [sees, hnone]
        rw [hlocals, hnested, dif_neg hbegin, dif_pos hend, if_pos hend]
        rfl
      rw [if_neg hend]
      split
      · cases outer <;> rfl
      split
      · rfl
      split
      · rfl
      · rfl
  · rintro ⟨_ | outer, s⟩ b h
    · cases h
    · simp only [bodyTurn?, Option.bind_some] at h
      split at h
      · cases h
      rename_i hmore
      split at h
      · cases h
        exact remaining_block_lt ‹_›
      split at h
      · rename_i hend
        cases h
        simp only [atEnd, List.isEmpty_iff] at hmore hend
        simpa [remaining, hend, List.length_pos_iff] using hmore
      split at h
      · cases h
        exact Nat.lt_of_le_of_lt (remaining_directive_le _) (remaining_nested_lt ‹_›)
      · cases h
        exact remaining_nested_lt ‹_›

theorem current_readerAtEnd (source : List UInt8) :
    (readerAtEnd source).current = (Scan.ofBytes source).final := by
  have hbody := reads_body (sound_ofScan source)
  have hdeclared := reads_declared (ofScan (Scan.ofBytes source))
  have hfinal : (readerAtEnd source).final = (ofScan (Scan.ofBytes source)).final :=
    hbody.final_eq.trans hdeclared.final_eq
  have hrest : (readerAtEnd source).rest = [] := by
    have htokens := tokens_program (ofScan (Scan.ofBytes source))
    rwa [tokens, List.map_eq_nil_iff] at htokens
  rw [current, hrest, List.headD_nil, hfinal]
  rfl

/-- Reading a source asks for each of its tokens once and in order, then once for the end, and
stops there. Every statement and every turn of the loops over statements, lines of variables,
declarations and skipped tokens takes a token. -/
theorem reading_takes_each_token_once (source : List UInt8) :
    (readerAtEnd source).trace.toList.filter Event.isTaking =
        (Scan.ofBytes source).tokens.map .scanned ++ [.ended (Scan.ofBytes source).openQuote] ∧
      (readerAtEnd source).current = (Scan.ofBytes source).final ∧
      (∀ s t, here? s = some t → isBlockEnd t = false →
        (statement t s).2.remaining < s.remaining) ∧
      IsLoop id (turnAt id statementTurn?) (fun s => (statements s).2) ∧
      IsLoop id lineTurn? (fun s => (variableSection s).2) ∧
      IsLoop id (turnAt id declarationTurn?) (fun s => (declarations s).2) ∧
      (∀ p, IsLoop id (turnAt id (skipTurn? p)) (skipWhile p)) ∧
      IsLoop Prod.snd (turnAt Prod.snd headerTurn?) (fun a => skipHeader a.1 a.2) ∧
      IsLoop Prod.snd (turnAt Prod.snd compoundTurn?)
        (fun a => a.1.elim a.2 fun levels => skipCompound levels a.2) ∧
      IsLoop Prod.snd bodyTurn? (fun a => a.1.elim a.2 fun outer => skipBodies outer a.2) :=
  ⟨takings_trace source, current_readerAtEnd source, fun _ _ h _ => remaining_statement_lt h,
    isLoop_statements, isLoop_variableSection, isLoop_declarations, isLoop_skipWhile,
    isLoop_skipHeader, isLoop_skipCompound, isLoop_skipBodies⟩

/-- Words and marks in an order that no program has, after an illegal character. -/
def garbage : List UInt8 := "? ) begin writeln(1, ; q . var x function f(a: ) begin".toUTF8.toList

theorem reading_takes_each_token_once_garbage :
    here? (ofScan (Scan.ofBytes garbage)) = some (ofScan (Scan.ofBytes garbage)).current ∧
      isBlockEnd (ofScan (Scan.ofBytes garbage)).current = false ∧
      (statement (ofScan (Scan.ofBytes garbage)).current
          (ofScan (Scan.ofBytes garbage))).2.remaining <
        (ofScan (Scan.ofBytes garbage)).remaining := by
  have hhere : here? (ofScan (Scan.ofBytes garbage)) =
      some (ofScan (Scan.ofBytes garbage)).current := by decide +kernel
  have hstart : isBlockEnd (ofScan (Scan.ofBytes garbage)).current = false := by decide +kernel
  obtain ⟨-, -, hstatement, -⟩ := reading_takes_each_token_once garbage
  exact ⟨hhere, hstart, hstatement _ _ hhere hstart⟩

end Reader

end PascalCheck
