import PascalCheck.Tree.Basic
import PascalCheck.Tree.Reader

namespace PascalCheck.Reader

variable {α : Type} [Log α]

def signedNumber (sign : Token) (s : Reader α) : Option Expr × Reader α :=
  match s.here? with
  | none => (none, s.unexpected .number)
  | some t =>
    if t.kind = .number then
      (some (.number t (t.literal (sign.is Code.minus)).text t.isReal), s.advance)
    else (none, s.unexpected .number)

def expression (s : Reader α) : Option Expr × Reader α :=
  match _h : s.here? with
  | none => (none, s.unexpected .expression)
  | some t =>
    if t.is Code.plus || t.is Code.minus then signedNumber t s.advance
    else if t.kind = .number then (some (.number t t.lexeme t.isReal), s.advance)
    else if t.kind = .ident then (some (.ident ⟨t, t.lexeme⟩), s.advance)
    else if t.is Code.leftParen then
      match expression s.advance with
      | (none, s) => (none, s)
      | (some inner, s) =>
        if s.sees Code.rightParen then (some (.paren t inner), s.advance)
        else (none, s.unexpected .rightParen)
    else (none, s.unexpected .expression)
termination_by s.remaining
decreasing_by exact remaining_advance_lt ‹_›

theorem remaining_signedNumber_le (sign : Token) (s : Reader α) :
    (signedNumber sign s).2.remaining ≤ s.remaining := by
  unfold signedNumber
  split
  · exact Nat.le_refl _
  · split
    · exact s.remaining_advance_le
    · exact Nat.le_refl _

theorem remaining_expression_le (s : Reader α) :
    (expression s).2.remaining ≤ s.remaining := by
  fun_induction expression s with
  | case1 s h => exact Nat.le_refl _
  | case2 s t h hs =>
    exact Nat.le_trans (remaining_signedNumber_le _ _) s.remaining_advance_le
  | case3 s t h => exact s.remaining_advance_le
  | case4 s t h => exact s.remaining_advance_le
  | case5 s t h _ _ _ _ s' he ih =>
    rw [he] at ih
    exact Nat.le_trans ih s.remaining_advance_le
  | case6 s t h _ _ _ _ inner s' he hp ih =>
    rw [he] at ih
    exact Nat.le_trans s'.remaining_advance_le (Nat.le_trans ih s.remaining_advance_le)
  | case7 s t h _ _ _ _ inner s' he hp ih =>
    rw [he] at ih
    exact Nat.le_trans ih s.remaining_advance_le
  | case8 s t h => exact Nat.le_refl _

def checkOperand (s : Reader α) (e : Expr) : Reader α :=
  match e.unparen with
  | .number t text isReal => s.emit (.literal ⟨text, isReal⟩ t.line)
  | .ident id => s.emit (.use id.name id.token.line)
  | _ => s

@[simp] theorem remaining_checkOperand (s : Reader α) (e : Expr) :
    (s.checkOperand e).remaining = s.remaining := by
  unfold checkOperand
  split <;> rfl

end PascalCheck.Reader
