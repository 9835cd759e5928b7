import PascalCheck.Proofs.Silence
import PascalCheck.Proofs.Written

namespace PascalCheck
set_option autoImplicit true

/-- With some brackets open, and perhaps after a minus, the tokens are taken to the end of the
source without a report. -/
def Calm (negated : Bool) (frames : List OpenBracket) (ts : List Token) : Prop :=
  (∀ t ∈ ts, t.Coherent) → ∀ r : Run, r.brackets = ⟨frames⟩ →
    r.attempts (readEvents negated ts ++ [.ended none]) = []

/-- The token reports nothing by itself, nor as a literal with the sign before it. -/
structure Token.Silent (t : Token) (negated : Bool) : Prop where
  legal : t.kind ≠ .unknown
  cause : t.cause? = none
  inRange : t.kind = .number → (t.literal negated).check.causes = []

namespace Calm

theorem nil : Calm negated [] [] := by
  intro _ r hr
  simp [readEvents, Run.attempts, Run.reports, Run.unclosedReports, Brackets.unclosed, hr]

theorem cons (h : Calm (t.is Code.minus) frames' ts) (ht : t.Silent negated)
    (hmeet : Brackets.meetAll ⟨frames⟩ t.line t.brackets = (⟨frames'⟩, [])) :
    Calm negated frames (t :: ts) := by
  intro hcoherent r hr
  have hreports : r.reports (.scanned t) = [] := by
    simp [Run.reports, Run.bracketReports, hr, hmeet, Token.reports, ht.cause]
  have hbrackets : (r.step (.scanned t)).brackets = ⟨frames'⟩ := by
    simp [Run.step_eq, Run.bracketsAfter, hr, hmeet]
  have hrest := h fun u hu => hcoherent u (List.mem_cons_of_mem t hu)
  rw [readEvents, if_neg ht.legal, List.cons_append, List.cons_append, List.append_assoc,
    Run.attempts, hreports, List.nil_append, Token.literalEvents]
  split
  · rename_i hk
    have hliteral (r : Run) : r.reports (.literal (t.literal negated) t.line) = [] :=
      List.map_eq_nil_iff.2 (ht.inRange hk)
    rw [List.singleton_append, Run.attempts, hliteral, List.nil_append]
    refine hrest _ ?_
    rw [Run.step_eq]
    exact hbrackets
  · exact hrest _ hbrackets

/-- Words and marks, whether they negate a number and their brackets. -/
def spellings : List (String × Bool × List BracketMark) := [
    ("program", false, []), ("var", false, []), ("integer", false, []), ("real", false, []),
    ("begin", false, []), ("end", false, []), ("writeln", false, []), (",", false, []),
    (":", false, []), (":=", false, []), (";", false, []), (".", false, []), ("-", true, []),
    ("(", false, [.opening .round]), (")", false, [.closing .round])]

theorem spelled (h : Calm minus frames' ts) (ht : t.Spells s) (hs : (s, minus, marks) ∈ spellings)
    (hmeet : Brackets.meetAll ⟨frames⟩ t.line marks = (⟨frames'⟩, [])) :
    Calm negated frames (t :: ts) := by
  have hall : ∀ entry ∈ spellings,
      (Layout.token .start (Lexeme.ofText entry.1)).kind ≠ .unknown ∧
      (Layout.token .start (Lexeme.ofText entry.1)).kind ≠ .number ∧
      (Layout.token .start (Lexeme.ofText entry.1)).cause? = none ∧
      (Layout.token .start (Lexeme.ofText entry.1)).is Code.minus = entry.2.1 ∧
      (Layout.token .start (Lexeme.ofText entry.1)).brackets = entry.2.2 := by
    decide +kernel
  obtain ⟨p, rfl⟩ := ht
  obtain ⟨hlegal, hnumber, hcause, hminus, hbrackets⟩ := hall _ hs
  have hsilent : (Layout.token p (Lexeme.ofText s)).Silent negated :=
    ⟨hlegal, hcause, fun hk => absurd hk hnumber⟩
  have hmarks : (Layout.token p (Lexeme.ofText s)).brackets = marks := hbrackets
  refine cons ?_ hsilent (hmarks.symm ▸ hmeet)
  exact (hminus : (Layout.token p (Lexeme.ofText s)).is Code.minus = minus).symm ▸ h

theorem plain (h : Calm false frames ts) (ht : t.Spells s) (hs : (s, false, []) ∈ spellings) :
    Calm negated frames (t :: ts) :=
  h.spelled ht hs rfl

theorem minus (h : Calm true frames ts) (ht : t.Spells "-") : Calm negated frames (t :: ts) :=
  h.spelled ht (by decide : (_, _, []) ∈ _) rfl

theorem opening (h : Calm false (⟨.round, t.line⟩ :: frames) ts) (ht : t.Spells "(") :
    Calm negated frames (t :: ts) :=
  h.spelled ht (by decide : (_, _, [BracketMark.opening .round]) ∈ _) rfl

theorem closing (h : Calm false frames ts) (ht : t.Spells ")") :
    Calm negated (⟨.round, n⟩ :: frames) (t :: ts) :=
  h.spelled ht (by decide : (_, _, [BracketMark.closing .round]) ∈ _) rfl

theorem name (h : Calm false frames ts) (hk : t.kind = .ident) : Calm negated frames (t :: ts) := by
  intro hcoherent
  have hminus : t.is Code.minus = false :=
    (hcoherent t List.mem_cons_self).is_eq_false_of_ident hk (by decide)
  have hcause : t.cause? = none := by simp [Token.cause?, Token.isReal, hk]
  have hbrackets : t.brackets = [] := by simp [Token.brackets, hk]
  have hmeet : Brackets.meetAll ⟨frames⟩ t.line t.brackets = (⟨frames⟩, []) := by
    rw [hbrackets]
    rfl
  exact cons (hminus ▸ h) ⟨by simp [hk], hcause, by simp [hk]⟩ hmeet hcoherent

theorem number (h : Calm false frames ts) (hk : t.kind = .number) (ht : t.InOrder negated) :
    Calm negated frames (t :: ts) := by
  intro hcoherent
  have hminus : t.is Code.minus = false :=
    (hcoherent t List.mem_cons_self).is_eq_false_of_number hk (by decide) (by decide)
  have hbrackets : t.brackets = [] := by simp [Token.brackets, hk]
  have hmeet : Brackets.meetAll ⟨frames⟩ t.line t.brackets = (⟨frames⟩, []) := by
    rw [hbrackets]
    rfl
  exact cons (hminus ▸ h) ⟨by simp [hk], ht.1, fun _ => ht.2⟩ hmeet hcoherent

end Calm

namespace Written

theorem Expression.calm (h : Expression e ts us) (hus : Calm false frames us) :
    Calm false frames ts := by
  induction h generalizing frames with
  | name hk _ => exact hus.name hk
  | number hk ht => exact hus.number hk ht
  | negative hm hk ht => exact (hus.number hk ht).minus hm
  | paren hl _ hr ih => exact (ih (hus.closing hr)).opening hl

theorem Arguments.calm (h : Arguments es ts us) (hus : Calm false frames us) :
    Calm false frames ts := by
  induction h with
  | last he => exact he.calm hus
  | cons he hc _ ih => exact he.calm ((ih hus).plain hc (by decide))

theorem Output.calm (h : Output es ts us) (hus : Calm false frames us) :
    Calm false (⟨.round, n⟩ :: frames) ts := by
  cases h with
  | empty hr => exact hus.closing hr
  | arguments hargs hr => exact hargs.calm (hus.closing hr)

mutual

theorem Statement.calm (h : Statement st ts us) (hus : Calm false frames us) :
    Calm false frames ts :=
  match h with
  | .assign hk _ ha hv hc =>
    ((hv.calm (hus.plain hc (by decide))).plain ha (by decide)).name hk
  | .output hw hl ho hc =>
    ((ho.calm (hus.plain hc (by decide))).opening hl).plain hw (by decide)
  | .block hb hinner he =>
    (hinner.calm (hus.plain he (by decide))).plain hb (by decide)

theorem Statements.calm (h : Statements sts ts us) (hus : Calm false frames us) :
    Calm false frames ts :=
  match h with
  | .nil => hus
  | .cons hst _ hrest => hst.calm (hrest.calm hus)

end

theorem Variables.calm (h : Variables ds ts us) (hus : Calm false frames us) :
    Calm false frames ts := by
  induction h with
  | nil => exact hus
  | @cons ds ts us d v n c t e hv hk _ hc ht htype he _ ih =>
    have hname : (d.type.name, false, []) ∈ Calm.spellings := by
      rcases htype with htype | htype <;> rw [htype] <;> decide
    have htyped : Calm false frames (t :: e :: ts) :=
      ((ih hus).plain he (by decide)).plain ht hname
    exact ((htyped.plain hc (by decide)).name hk).plain hv (by decide)

theorem Heading.calm (h : Heading name ts us) (hus : Calm false frames us) :
    Calm false frames ts := by
  cases h with
  | none => exact hus
  | named hp hk _ hc => exact ((hus.plain hc (by decide)).name hk).plain hp (by decide)

theorem Program.calm (h : Written.Program p ts) : Calm false [] ts := by
  cases h with
  | @mk _ _ _ _ _ _ _ e d _ hheading hvars hb hbody he hd =>
    have hend : Calm false [] [e, d] := (Calm.nil.plain hd (by decide)).plain he (by decide)
    exact hheading.calm (hvars.calm ((hbody.calm hend).plain hb (by decide)))

end Written

end PascalCheck
