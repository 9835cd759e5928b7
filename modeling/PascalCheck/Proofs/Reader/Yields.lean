import PascalCheck.Proofs.Reader.Story
import PascalCheck.Tree.Declaration
import PascalCheck.Tree.Statement

namespace PascalCheck.Reader
set_option autoImplicit true

/-- An expression is read, and another reader stands behind it. -/
inductive YieldsExpr : Reader → Expr → Reader → Prop
  | signed {s : Reader} {sign t : Token} : s.here? = some sign →
      sign.is Code.plus = true ∨ sign.is Code.minus = true →
      s.advance.here? = some t → t.kind = .number →
      YieldsExpr s (.number t (t.literal (sign.is Code.minus)).text t.isReal) s.advance.advance
  | number {s : Reader} {t : Token} : s.here? = some t → t.kind = .number →
      YieldsExpr s (.number t t.lexeme t.isReal) s.advance
  | name {s : Reader} {t : Token} : s.here? = some t → t.kind = .ident →
      YieldsExpr s (.ident ⟨t, t.lexeme⟩) s.advance
  | paren {s s' : Reader} {l : Token} {inner : Expr} : s.here? = some l →
      l.is Code.leftParen = true → YieldsExpr s.advance inner s' →
      s'.sees Code.rightParen = true → YieldsExpr s (.paren l inner) s'.advance

theorem yieldsExpr_of_signedNumber {s : Reader} (hs : s.here? = some sign)
    (hsign : sign.is Code.plus = true ∨ sign.is Code.minus = true)
    (h : signedNumber sign s.advance = (some e, s')) : YieldsExpr s e s' := by
  unfold signedNumber at h
  split at h
  · cases h
  · rename_i t ht
    split at h
    · rename_i hk
      cases h
      exact .signed hs hsign ht hk
    · cases h

theorem yieldsExpr (h : expression s = (some e, s')) : YieldsExpr s e s' := by
  fun_induction expression s generalizing e s' with
  | case1 s hs => cases h
  | case2 s t hs hsign => exact yieldsExpr_of_signedNumber hs (by simpa using hsign) h
  | case3 s t hs _ hk =>
    cases h
    exact .number hs hk
  | case4 s t hs _ _ hk =>
    cases h
    exact .name hs hk
  | case5 s t hs _ _ _ hl u he ih => cases h
  | case6 s t hs _ _ _ hl inner u he hr ih =>
    cases h
    exact .paren hs hl (ih he) hr
  | case7 s t hs _ _ _ hl inner u he hr ih => cases h
  | case8 s t hs => cases h

/-- Arguments are read, each of them checked. -/
inductive YieldsArguments : Reader → List Expr → Reader → Prop
  | last {s s' : Reader} {e : Expr} : expression s = (some e, s') →
      YieldsArguments s [e] (s'.checkOperand e)
  | cons {s s' s'' : Reader} {e : Expr} {es : List Expr} : expression s = (some e, s') →
      (s'.checkOperand e).sees Code.comma = true →
      YieldsArguments (s'.checkOperand e).advance es s'' → YieldsArguments s (e :: es) s''

theorem yieldsArguments (h : arguments s = (some es, s')) : YieldsArguments s es s' := by
  fun_induction arguments s generalizing es s' with
  | case1 s t he => cases h
  | case2 s e t he hc t' ha ih => cases h
  | case3 s e t he hc es t' ha ih =>
    cases h
    exact .cons he hc (ih ha)
  | case4 s e t he hc =>
    cases h
    exact .last he

/-- Names with commas between them are read. -/
inductive YieldsNames : Reader → List Token → Reader → Prop
  | last {s : Reader} {t : Token} : s.here? = some t → t.kind = .ident →
      YieldsNames s [t] s.advance
  | cons {s s' : Reader} {t : Token} {ts : List Token} : s.here? = some t → t.kind = .ident →
      s.advance.sees Code.comma = true →
      YieldsNames s.advance.advance ts s' → YieldsNames s (t :: ts) s'

theorem yieldsNames (h : names s = (some ts, s')) : YieldsNames s ts s' := by
  fun_induction names s generalizing ts s' with
  | case1 s hs => cases h
  | case2 s t hs hk hc u hn ih => cases h
  | case3 s t hs hk hc us u hn ih =>
    cases h
    exact .cons hs hk hc (ih hn)
  | case4 s t hs hk hc =>
    cases h
    exact .last hs hk
  | case5 s t hs hk => cases h

/-- A colon and the name of a type are read. -/
inductive YieldsType : Reader → ValueType → Reader → Prop
  | mk {s : Reader} {t : Token} {type : ValueType} : s.seesKind .colon = true →
      s.advance.here? = some t → t.kind = .keyword → ValueType.ofCode? t.code = some type →
      YieldsType s type s.advance.advance

theorem yieldsType {s : Reader} (h : s.typeAnnotation = (some type, s')) :
    YieldsType s type s' := by
  unfold typeAnnotation at h
  split at h
  · rename_i hc
    unfold typeName at h
    split at h
    · cases h
    · rename_i t ht
      split at h
      · rename_i hk
        split at h
        · rename_i htype
          cases h
          exact .mk hc ht hk htype
        · cases h
      · cases h
  · cases h

end PascalCheck.Reader
