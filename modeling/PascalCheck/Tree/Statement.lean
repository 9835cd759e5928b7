import PascalCheck.Tree.Expression

namespace PascalCheck.Reader

variable {α : Type} [Log α]

/-- Takes the semicolon after a statement. It may be left out where a block ends. -/
def endStatement (s : Reader α) : Reader α :=
  if s.sees Code.semicolon then s.advance
  else if s.sees Code.endWord || s.sees Code.dot || s.atEnd then s
  else (s.report .missingSemicolon s.lastLine).synchronize

theorem remaining_endStatement_le (s : Reader α) : s.endStatement.remaining ≤ s.remaining := by
  unfold endStatement
  split
  · exact s.remaining_advance_le
  split
  · exact Nat.le_refl _
  · exact remaining_synchronize_le _

/-- Has an assignment checked: a literal on its own line, a name on the line of the target. -/
def checkAssignment (s : Reader α) (target : Ident) (value : Expr) : Reader α :=
  match value.unparen with
  | .number t text isReal => s.emit (.assign target.name ⟨text, isReal⟩ t.line)
  | .ident source => s.emit (.assignName target.name source.name target.token.line)
  | _ => s

@[simp] theorem remaining_checkAssignment (s : Reader α) (target : Ident) (value : Expr) :
    (s.checkAssignment target value).remaining = s.remaining := by
  unfold checkAssignment
  split <;> rfl

def assignment (target : Ident) (s : Reader α) : Option Stmt × Reader α :=
  match s.here? with
  | none => (none, (s.report .missingAssign target.token.line).synchronize)
  | some t =>
    if t.is Code.assign then
      match expression s.advance with
      | (none, s) => (none, s.synchronize)
      | (some value, s) =>
        (some (.assign t target value), (s.checkAssignment target value).endStatement)
    else (none, (s.report .missingAssign target.token.line).synchronize)

theorem remaining_assignment_le (target : Ident) (s : Reader α) :
    (assignment target s).2.remaining ≤ s.remaining := by
  have he := Nat.le_trans (remaining_expression_le s.advance) s.remaining_advance_le
  unfold assignment
  split
  · exact remaining_synchronize_le _
  split
  · split
    · rename_i hx
      rw [hx] at he
      exact Nat.le_trans (remaining_synchronize_le _) he
    · rename_i hx
      rw [hx] at he
      refine Nat.le_trans (remaining_endStatement_le _) ?_
      simpa using he
  · exact remaining_synchronize_le _

/-- Reads expressions with commas between them and has each checked. -/
def arguments (s : Reader α) : Option (List Expr) × Reader α :=
  match _h : expression s with
  | (none, t) => (none, t)
  | (some e, t) =>
    if _hc : (t.checkOperand e).sees Code.comma then
      match arguments (t.checkOperand e).advance with
      | (none, t) => (none, t)
      | (some es, t) => (some (e :: es), t)
    else (some [e], t.checkOperand e)
termination_by s.remaining
decreasing_by
  have he := remaining_expression_le s
  have hc := remaining_advance_lt_of_sees ‹(t.checkOperand e).sees Code.comma = true›
  simp_all
  omega

theorem remaining_le_of_expression {s t : Reader α} (h : expression s = (e, t)) :
    t.remaining ≤ s.remaining := by
  have he := remaining_expression_le s
  rwa [h] at he

theorem remaining_arguments_le (s : Reader α) : (arguments s).2.remaining ≤ s.remaining := by
  fun_induction arguments s with
  | case1 s t h => exact remaining_le_of_expression h
  | case2 s e t h hc t' ha ih =>
    rw [ha] at ih
    have hl := Nat.le_trans ih (remaining_advance_le _)
    rw [remaining_checkOperand] at hl
    exact Nat.le_trans hl (remaining_le_of_expression h)
  | case3 s e t h hc es t' ha ih =>
    rw [ha] at ih
    have hl := Nat.le_trans ih (remaining_advance_le _)
    rw [remaining_checkOperand] at hl
    exact Nat.le_trans hl (remaining_le_of_expression h)
  | case4 s e t h hc =>
    rw [remaining_checkOperand]
    exact remaining_le_of_expression h

def output (word : Token) (s : Reader α) : Option Stmt × Reader α :=
  if s.sees Code.leftParen then
    if s.advance.sees Code.rightParen then
      (some (.writeln word []), s.advance.advance.endStatement)
    else
      match arguments s.advance with
      | (none, s) => (none, s.synchronize)
      | (some args, s) =>
        if s.sees Code.rightParen then (some (.writeln word args), s.advance.endStatement)
        else (none, (s.unexpected .rightParen).synchronize)
  else (some (.writeln word []), s.endStatement)

theorem remaining_output_le (word : Token) (s : Reader α) :
    (output word s).2.remaining ≤ s.remaining := by
  have ha := Nat.le_trans (remaining_arguments_le s.advance) s.remaining_advance_le
  unfold output
  split
  · split
    · exact Nat.le_trans (remaining_endStatement_le _)
        (Nat.le_trans s.advance.remaining_advance_le s.remaining_advance_le)
    · split
      · rename_i hx
        rw [hx] at ha
        exact Nat.le_trans (remaining_synchronize_le _) ha
      · rename_i args t hx
        rw [hx] at ha
        split
        · exact Nat.le_trans (remaining_endStatement_le _)
            (Nat.le_trans t.remaining_advance_le ha)
        · exact Nat.le_trans (remaining_synchronize_le _) ha
  · exact remaining_endStatement_le _

def simpleStatement (t : Token) (s : Reader α) : Option Stmt × Reader α :=
  if t.is Code.semicolon then (none, s.advance)
  else if t.kind = .ident then assignment ⟨t, t.lexeme⟩ s.advance
  else if t.is Code.writelnWord then output t s.advance
  else (none, (s.unexpected .statement).advance.synchronize)

theorem remaining_simpleStatement_lt {t : Token} {s : Reader α} (h : s.here? = some t) :
    (simpleStatement t s).2.remaining < s.remaining := by
  have hl := remaining_advance_lt h
  unfold simpleStatement
  split
  · exact hl
  split
  · exact Nat.lt_of_le_of_lt (remaining_assignment_le _ _) hl
  split
  · exact Nat.lt_of_le_of_lt (remaining_output_le _ _) hl
  · refine Nat.lt_of_le_of_lt (remaining_synchronize_le _) ?_
    rw [remaining_advance] at hl ⊢
    exact hl

def closeBlock (s : Reader α) : Reader α :=
  if s.sees Code.endWord then s.advance else s.report .missingEnd s.lastLine

theorem remaining_closeBlock_le (s : Reader α) : s.closeBlock.remaining ≤ s.remaining := by
  unfold closeBlock
  split
  · exact s.remaining_advance_le
  · exact Nat.le_refl _

def isBlockEnd (t : Token) : Bool := t.is Code.endWord || t.is Code.dot

/-- Reads statements up to the end of their block; no token is put back. -/
def statementsAhead (s : Reader α) : List Stmt × { t : Reader α // t.remaining ≤ s.remaining } :=
  match h : s.here? with
  | none => ([], ⟨s, Nat.le_refl _⟩)
  | some t =>
    if isBlockEnd t then ([], ⟨s, Nat.le_refl _⟩)
    else if t.is Code.beginWord then
      have hl := remaining_advance_lt h
      let (body, ⟨s₁, h₁⟩) := statementsAhead s.advance
      have hc := remaining_closeBlock_le s₁
      have he := remaining_endStatement_le s₁.closeBlock
      let (more, ⟨s₂, h₂⟩) := statementsAhead s₁.closeBlock.endStatement
      have hb := Nat.le_trans (Nat.le_trans he hc) (Nat.le_trans h₁ (Nat.le_of_lt hl))
      (.block t body :: more, ⟨s₂, Nat.le_trans h₂ hb⟩)
    else
      have hl := remaining_simpleStatement_lt h
      let (more, ⟨s₂, h₂⟩) := statementsAhead (simpleStatement t s).2
      ((simpleStatement t s).1.toList ++ more, ⟨s₂, Nat.le_trans h₂ (Nat.le_of_lt hl)⟩)
termination_by s.remaining

def statements (s : Reader α) : List Stmt × Reader α :=
  ((statementsAhead s).1, (statementsAhead s).2.val)

theorem remaining_statements_le (s : Reader α) : (statements s).2.remaining ≤ s.remaining :=
  (statementsAhead s).2.property

/-- How statements are read: up to the end of a block, blocks within it first. -/
theorem statements_eq (s : Reader α) :
    statements s =
      match s.here? with
      | none => ([], s)
      | some t =>
        if isBlockEnd t then ([], s)
        else if t.is Code.beginWord then
          let inner := statements s.advance
          let more := statements inner.2.closeBlock.endStatement
          (.block t inner.1 :: more.1, more.2)
        else
          let first := simpleStatement t s
          let more := statements first.2
          (first.1.toList ++ more.1, more.2) := by
  rw [statements, statementsAhead]
  split
  · simp_all
  · rename_i t h
    simp only [h]
    split
    · simp_all
    split
    · rfl
    · rfl

def isStatementStart (t : Token) : Bool := t.kind == .ident || t.is Code.writelnWord

def openBody (s : Reader α) : Reader α :=
  if s.sees Code.beginWord then s.advance
  else
    ((s.report .missingBegin s.line).skipWhile fun t =>
      !(t.is Code.beginWord || isBlockEnd t || isStatementStart t)).accept Code.beginWord

def block (s : Reader α) : Block × Reader α :=
  let (body, t) := statements s.openBody
  (⟨s.current, body⟩, t.closeBlock)

end PascalCheck.Reader
