import PascalCheck.Tree.Reader

namespace PascalCheck.Reader

variable {α : Type}

def seesForward (s : Reader α) : Bool :=
  s.here?.any fun t => t.kind == .ident && Text.lower t.lexeme == "forward"

theorem here?_of_seesForward {s : Reader α} (h : s.seesForward) : ∃ t, s.here? = some t := by
  cases hs : s.here? with
  | none => simp [seesForward, hs] at h
  | some t => exact ⟨t, rfl⟩

theorem here?_of_not_atEnd {s : Reader α} (h : s.atEnd = false) : ∃ t, s.here? = some t := by
  cases hr : s.rest with
  | nil => simp [atEnd, hr] at h
  | cons r rs => exact ⟨r.token, by simp [here?, hr]⟩

variable [Log α]

/-- Passes the header of a nested routine up to its semicolon. One inside parentheses does not
count. -/
def skipHeader (depth : Int) (s : Reader α) : Reader α :=
  match _h : s.here? with
  | none => s
  | some t =>
    if t.is Code.leftParen then skipHeader (depth + 1) s.advance
    else if t.is Code.rightParen then skipHeader (depth - 1) s.advance
    else if t.is Code.semicolon && depth ≤ 0 then s
    else skipHeader depth s.advance
termination_by s.remaining
decreasing_by all_goals exact remaining_advance_lt ‹_›

theorem remaining_skipHeader_le (depth : Int) (s : Reader α) :
    (skipHeader depth s).remaining ≤ s.remaining := by
  fun_induction skipHeader depth s with
  | case1 => exact Nat.le_refl _
  | case2 depth s t h hp ih => exact Nat.le_trans ih s.remaining_advance_le
  | case3 depth s t h _ hp ih => exact Nat.le_trans ih s.remaining_advance_le
  | case4 => exact Nat.le_refl _
  | case5 depth s t h _ _ _ ih => exact Nat.le_trans ih s.remaining_advance_le

def opensLevel (t : Token) : Bool :=
  t.is Code.beginWord || t.is Code.caseWord || t.is Code.recordWord

/-- Passes the rest of a compound statement, with as many levels open inside it. -/
def skipCompound (levels : Nat) (s : Reader α) : Reader α :=
  match _h : s.here? with
  | none => s
  | some t =>
    if opensLevel t then skipCompound (levels + 1) s.advance
    else if t.is Code.endWord then
      match levels with
      | 0 => s.advance
      | levels + 1 => skipCompound levels s.advance
    else skipCompound levels s.advance
termination_by s.remaining
decreasing_by all_goals exact remaining_advance_lt ‹_›

theorem remaining_skipCompound_le (levels : Nat) (s : Reader α) :
    (skipCompound levels s).remaining ≤ s.remaining := by
  fun_induction skipCompound levels s with
  | case1 => exact Nat.le_refl _
  | case2 levels s t h ho ih => exact Nat.le_trans ih s.remaining_advance_le
  | case3 s t h _ he => exact s.remaining_advance_le
  | case4 s t h _ he levels ih => exact Nat.le_trans ih s.remaining_advance_le
  | case5 levels s t h _ he ih => exact Nat.le_trans ih s.remaining_advance_le

def isBodyMark (t : Token) : Bool :=
  t.is Code.functionWord || t.is Code.procedureWord || t.is Code.beginWord

/-- Passes local declarations to the next nested routine or compound statement. -/
def skipLocals (s : Reader α) : Reader α := s.skipWhile fun t => !isBodyMark t

/-- Passes the compound statement at the reader and the semicolon after it. -/
def skipBlock (s : Reader α) : Reader α := (skipCompound 0 s.advance).expectSemicolon

theorem remaining_skipLocals_le (s : Reader α) : s.skipLocals.remaining ≤ s.remaining :=
  remaining_skipWhile_le _ _

theorem remaining_skipBlock_lt {s : Reader α} (h : s.sees Code.beginWord) :
    s.skipBlock.remaining < s.remaining :=
  Nat.lt_of_le_of_lt (remaining_expectSemicolon_le _)
    (Nat.lt_of_le_of_lt (remaining_skipCompound_le _ _) (remaining_advance_lt_of_sees h))

def skipToNested (s : Reader α) : Reader α := skipHeader 0 s.skipLocals

theorem remaining_skipToNested_le (s : Reader α) : s.skipToNested.remaining ≤ s.remaining :=
  Nat.le_trans (remaining_skipHeader_le _ _) s.remaining_skipLocals_le

theorem remaining_nested_lt {s : Reader α} (h : ¬ s.skipToNested.atEnd) :
    s.skipToNested.advance.remaining < s.remaining := by
  obtain ⟨t, ht⟩ := here?_of_not_atEnd (Bool.eq_false_iff.2 h)
  exact Nat.lt_of_lt_of_le (remaining_advance_lt ht) s.remaining_skipToNested_le

theorem remaining_block_lt {s : Reader α} (h : s.skipLocals.sees Code.beginWord) :
    s.skipLocals.skipBlock.remaining < s.remaining :=
  Nat.lt_of_lt_of_le (remaining_skipBlock_lt h) s.remaining_skipLocals_le

theorem remaining_directive_le (s : Reader α) :
    s.advance.expectSemicolon.remaining ≤ s.remaining :=
  Nat.le_trans (remaining_expectSemicolon_le _) s.remaining_advance_le

/-- Passes the rest of a body that lies within as many bodies begun before it, and the rest of
those. -/
def skipBodies (outer : Nat) (s : Reader α) : Reader α :=
  if _hb : s.skipLocals.sees Code.beginWord then
    match outer with
    | 0 => s.skipLocals.skipBlock
    | outer + 1 => skipBodies outer s.skipLocals.skipBlock
  else if _he : s.skipToNested.atEnd then s.skipToNested
  else if s.skipToNested.advance.seesForward then
    skipBodies outer s.skipToNested.advance.advance.expectSemicolon
  else skipBodies (outer + 1) s.skipToNested.advance
termination_by s.remaining
decreasing_by
  · exact remaining_block_lt ‹_›
  · exact Nat.lt_of_le_of_lt (remaining_directive_le _) (remaining_nested_lt ‹_›)
  · exact remaining_nested_lt ‹_›

def skipBody (s : Reader α) : Reader α :=
  if s.seesForward then s.advance.expectSemicolon else skipBodies 0 s

theorem remaining_skipBodies_le (outer : Nat) (s : Reader α) :
    (skipBodies outer s).remaining ≤ s.remaining := by
  fun_induction skipBodies outer s with
  | case1 s hb => exact Nat.le_of_lt (remaining_block_lt hb)
  | case2 s hb outer ih => exact Nat.le_trans ih (Nat.le_of_lt (remaining_block_lt hb))
  | case3 outer s hb he => exact s.remaining_skipToNested_le
  | case4 outer s hb he hf ih =>
    exact Nat.le_trans ih
      (Nat.le_trans (remaining_directive_le _) (Nat.le_of_lt (remaining_nested_lt he)))
  | case5 outer s hb he hf ih => exact Nat.le_trans ih (Nat.le_of_lt (remaining_nested_lt he))

theorem remaining_skipBody_le (s : Reader α) : s.skipBody.remaining ≤ s.remaining := by
  unfold skipBody
  split
  · exact s.remaining_directive_le
  · exact remaining_skipBodies_le _ _

end PascalCheck.Reader
