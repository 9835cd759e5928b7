import PascalCheck.Proofs.Grammar.Statements
import PascalCheck.Proofs.Relexing

namespace PascalCheck
set_option autoImplicit true

def Ident.bare (id : Ident) : Ident := { id with token := default }

def Expr.bare : Expr → Expr
  | .absent => .absent
  | .ident id => .ident id.bare
  | .number _ text isReal => .number default text isReal
  | .paren _ inner => .paren default inner.bare

mutual

def Stmt.bare : Stmt → Stmt
  | .assign _ target value => .assign default target.bare value.bare
  | .writeln _ args => .writeln default (args.map Expr.bare)
  | .block _ body => .block default (Stmt.bareAll body)

def Stmt.bareAll : List Stmt → List Stmt
  | [] => []
  | s :: ss => s.bare :: Stmt.bareAll ss

end

def Block.bare (b : Block) : Block := ⟨default, Stmt.bareAll b.body⟩

def VarDecl.bare (d : VarDecl) : VarDecl := { d with token := default }

def Routine.bare (r : Routine) : Routine := { r with token := default }

/-- The program without the tokens of its nodes. -/
def Program.bare (p : Program) : Program where
  name := p.name
  vars := p.vars.map VarDecl.bare
  routines := p.routines.map Routine.bare
  body := p.body.map Block.bare

def Stmt.isBlock : Stmt → Bool
  | .block _ _ => true
  | _ => false

/-- The words and marks of written programs with their codes. -/
def writtenCodes : List (String × Int) := [
    ("program", Code.programWord), ("var", Code.varWord), ("begin", Code.beginWord),
    ("end", Code.endWord), ("writeln", Code.writelnWord), ("(", Code.leftParen),
    (")", Code.rightParen), (",", Code.comma), (";", Code.semicolon), (":=", Code.assign),
    ("-", Code.minus), (".", Code.dot)]

namespace Token.Spells

theorem is {t : Token} {code : Int} (h : t.Spells s) (hs : (s, code) ∈ writtenCodes) :
    t.is code = true := by
  have hall : ∀ entry ∈ writtenCodes,
      (Layout.token .start (Lexeme.ofText entry.1)).is entry.2 = true := by
    decide +kernel
  obtain ⟨p, rfl⟩ := h
  exact hall _ hs

theorem kind_colon {t : Token} (h : t.Spells ":") : t.kind = .colon := by
  have hkind : (Lexeme.ofText ":").kind = .colon := by decide +kernel
  obtain ⟨p, rfl⟩ := h
  exact hkind

theorem ofCode? {t : Token} {type : ValueType} (h : t.Spells type.name)
    (htype : type = .integer ∨ type = .real) :
    t.kind = .keyword ∧ ValueType.ofCode? t.code = some type := by
  have hall : ∀ type ∈ [ValueType.integer, .real], (Lexeme.ofText type.name).kind = .keyword ∧
      ValueType.ofCode? (Lexeme.ofText type.name).code = some type := by
    decide +kernel
  obtain ⟨p, rfl⟩ := h
  exact hall type (by simpa using htype)

end Token.Spells

/-- The number reports nothing, neither by itself nor as a literal with its sign. -/
def Token.InOrder (t : Token) (negated : Bool) : Prop :=
  t.cause? = none ∧ (t.literal negated).check.causes = []

namespace Written

inductive Expression : Expr → List Token → List Token → Prop
  | name : t.kind = .ident → t.lexeme = name.name → Expression (.ident name) (t :: ts) ts
  | number : t.kind = .number → t.InOrder false →
      Expression (.number u t.lexeme t.isReal) (t :: ts) ts
  | negative : m.Spells "-" → t.kind = .number → t.InOrder true →
      Expression (.number u ("-" ++ t.lexeme) t.isReal) (m :: t :: ts) ts
  | paren : l.Spells "(" → Expression e ts (r :: rest) → r.Spells ")" →
      Expression (.paren u e) (l :: ts) rest

inductive Arguments : List Expr → List Token → List Token → Prop
  | last : Expression e ts rest → Arguments [e] ts rest
  | cons : Expression e ts (c :: us) → c.Spells "," → Arguments es us rest →
      Arguments (e :: es) ts rest

/-- Arguments and the closing parenthesis. -/
inductive Output : List Expr → List Token → List Token → Prop
  | empty : r.Spells ")" → Output [] (r :: rest) rest
  | arguments : Arguments es ts (r :: rest) → r.Spells ")" → Output es ts rest

mutual

/-- A statement with its semicolon; a block has none. -/
inductive Statement : Stmt → List Token → List Token → Prop
  | assign : t.kind = .ident → t.lexeme = target.name → a.Spells ":=" →
      Expression value ts (c :: rest) → c.Spells ";" →
      Statement (.assign u target value) (t :: a :: ts) rest
  | output : w.Spells "writeln" → l.Spells "(" → Output args ts (c :: rest) → c.Spells ";" →
      Statement (.writeln u args) (w :: l :: ts) rest
  | block : b.Spells "begin" → Statements body ts (e :: rest) → e.Spells "end" →
      Statement (.block u body) (b :: ts) rest

/-- Statements, of which only the last can be a block. -/
inductive Statements : List Stmt → List Token → List Token → Prop
  | nil : Statements [] ts ts
  | cons : Statement st ts us → (st.isBlock = true → sts = []) → Statements sts us rest →
      Statements (st :: sts) ts rest

end

/-- Each variable has a section of its own. -/
inductive Variables : List VarDecl → List Token → List Token → Prop
  | nil : Variables [] ts ts
  | cons : v.Spells "var" → n.kind = .ident → n.lexeme = d.name → c.Spells ":" →
      t.Spells d.type.name → d.type = .integer ∨ d.type = .real → e.Spells ";" →
      Variables ds ts rest → Variables (d :: ds) (v :: n :: c :: t :: e :: ts) rest

inductive Heading : String → List Token → List Token → Prop
  | none : Heading "" ts ts
  | named : p.Spells "program" → n.kind = .ident → n.lexeme = name → c.Spells ";" →
      Heading name (p :: n :: c :: ts) ts

/-- A whole program without routines. -/
inductive Program : PascalCheck.Program → List Token → Prop
  | mk : Heading name ts us → Variables vars us (b :: vs) → b.Spells "begin" →
      Statements body vs [e, d] → e.Spells "end" → d.Spells "." →
      Program ⟨name, vars, [], some ⟨u, body⟩⟩ ts

end Written

theorem Written.Expression.head (h : Written.Expression e ts us) :
    ∃ t vs, ts = t :: vs ∧ (t.Coherent → t.is Code.rightParen = false) := by
  cases h with
  | name hk hn => exact ⟨_, _, rfl, fun ht => ht.is_eq_false_of_ident hk (by decide)⟩
  | number hk =>
    exact ⟨_, _, rfl, fun ht => ht.is_eq_false_of_number hk (by decide) (by decide)⟩
  | @negative u m t _ hm hk =>
    have hminus : m.is Code.minus = true := hm.is (by decide)
    exact ⟨_, _, rfl, fun _ => Token.is_eq_false hminus (by decide)⟩
  | @paren _ _ _ _ _ l hl _ _ =>
    have hleft : l.is Code.leftParen = true := hl.is (by decide)
    exact ⟨_, _, rfl, fun _ => Token.is_eq_false hleft (by decide)⟩

theorem Written.Arguments.head (h : Written.Arguments es ts us) :
    ∃ t vs, ts = t :: vs ∧ (t.Coherent → t.is Code.rightParen = false) := by
  cases h with
  | last he => exact he.head
  | cons he _ _ => exact he.head

theorem Written.Variables.head (h : Written.Variables ds ts us)
    (hf : ∃ b vs, us = b :: vs ∧ b.is Code.beginWord = true) :
    ∃ u vs, ts = u :: vs ∧ (u.is Code.varWord = true ∨ u.is Code.beginWord = true) := by
  cases h with
  | nil =>
    obtain ⟨b, vs, rfl, hb⟩ := hf
    exact ⟨b, vs, rfl, .inr hb⟩
  | cons hv _ _ _ _ _ _ _ => exact ⟨_, _, rfl, .inl (hv.is (by decide))⟩

namespace Reader
open Written

def Quiet (_ : Reader) (e : Event) : Prop := e ≠ .balance ∧ ∀ c n, e ≠ .fault c n

/-- The second reader stands before the tokens, and nothing was reported on the way to it. -/
structure Proceeds (s s' : Reader) (rest : List Token) : Prop where
  tokens_eq : s'.tokens = rest
  reads : Reads Quiet s s'

namespace Proceeds

theorem refl (h : tokens s = ts) : Proceeds s s ts := ⟨h, .refl⟩

theorem trans (h : Proceeds s s' ts) (k : Proceeds s' s'' us) : Proceeds s s'' us :=
  ⟨k.tokens_eq, h.reads.trans k.reads⟩

theorem advance (h : tokens s = t :: ts) : Proceeds s s.advance ts :=
  ⟨tokens_advance_of h, .advance ⟨t, here?_of_tokens h⟩⟩

theorem emit (h : tokens s = ts) (he : Quiet s e) : Proceeds s (s.emit e) ts := ⟨h, .event he⟩

theorem expectSemicolon (h : tokens s = c :: ts) (hc : c.is Code.semicolon = true) :
    Proceeds s s.expectSemicolon ts := by
  rw [Reader.expectSemicolon, sees_of_tokens h, if_pos hc]
  exact .advance h

theorem declareAll (h : tokens s = ts) (symbols : List Symbol) :
    Proceeds s (s.declareAll symbols) ts := by
  induction symbols generalizing s with
  | nil => exact .refl h
  | cons symbol symbols ih =>
    have he : Proceeds s (s.emit (.declare symbol)) ts := .emit h (by simp [Quiet])
    exact he.trans (ih h)

theorem checkOperand (h : tokens s = ts) (e : Expr) : Proceeds s (s.checkOperand e) ts := by
  unfold Reader.checkOperand
  split
  · exact .emit h (by simp [Quiet])
  · exact .emit h (by simp [Quiet])
  · exact .refl h

theorem checkAssignment (h : tokens s = ts) (target : Ident) (value : Expr) :
    Proceeds s (s.checkAssignment target value) ts := by
  unfold Reader.checkAssignment
  split
  · exact .emit h (by simp [Quiet])
  · exact .emit h (by simp [Quiet])
  · exact .refl h

theorem sound (h : Proceeds s s' ts) (hs : s.Sound) : s'.Sound := h.reads.sound hs

end Proceeds

theorem expression_written (h : Written.Expression e ts us) (hs : tokens s = ts)
    (hsound : s.Sound) :
    ∃ e' s', expression s = (some e', s') ∧ e'.bare = e.bare ∧ Proceeds s s' us := by
  induction h generalizing s with
  | @name x t ts hk hname =>
    have hcoherent := hsound.coherent_of_tokens hs
    have hplus : t.is Code.plus = false := hcoherent.is_eq_false_of_ident hk (by decide)
    have hminus : t.is Code.minus = false := hcoherent.is_eq_false_of_ident hk (by decide)
    rw [expression_cons hs, hplus, hminus, hk, hname]
    exact ⟨_, _, rfl, rfl, .advance hs⟩
  | @number u t ts hk =>
    have hcoherent := hsound.coherent_of_tokens hs
    have hplus : t.is Code.plus = false :=
      hcoherent.is_eq_false_of_number hk (by decide) (by decide)
    have hminus : t.is Code.minus = false :=
      hcoherent.is_eq_false_of_number hk (by decide) (by decide)
    rw [expression_cons hs, hplus, hminus, if_neg (by decide), if_pos hk]
    exact ⟨_, _, rfl, rfl, .advance hs⟩
  | @negative u m t ts hm hk =>
    have ha := Proceeds.advance hs
    have hminus : m.is Code.minus = true := hm.is (by decide)
    rw [expression_cons hs, hminus, if_pos (Bool.or_true _), signedNumber,
      here?_of_tokens ha.tokens_eq]
    simp only [hk, if_true, hminus]
    exact ⟨_, _, rfl, rfl, ha.trans (.advance ha.tokens_eq)⟩
  | @paren e ts r rest u l hl _ hr ih =>
    have hcoherent := hsound.coherent_of_tokens hs
    have ha := Proceeds.advance hs
    obtain ⟨e', s', he, hbare, hp⟩ := ih ha.tokens_eq hsound.advance
    have hleft : l.is Code.leftParen = true := hl.is (by decide)
    have hright : r.is Code.rightParen = true := hr.is (by decide)
    rw [expression_cons hs, Token.is_eq_false hleft (by decide),
      Token.is_eq_false hleft (by decide), if_neg (by decide),
      if_neg (hcoherent.kind_ne_number hleft (by decide) (by decide)),
      if_neg (hcoherent.kind_ne_ident hleft (by decide)), if_pos hleft, he]
    dsimp only
    rw [sees_of_tokens hp.tokens_eq, if_pos hright]
    refine ⟨_, _, rfl, ?_, ha.trans (hp.trans (.advance hp.tokens_eq))⟩
    rw [Expr.bare, Expr.bare, hbare]

theorem arguments_written (h : Written.Arguments es ts us) (hs : tokens s = ts) (hsound : s.Sound)
    (hf : ∀ t ∈ us.head?, t.is Code.comma = false) :
    ∃ es' s', arguments s = (some es', s') ∧ es'.map Expr.bare = es.map Expr.bare ∧
      Proceeds s s' us := by
  induction h generalizing s with
  | last he =>
    obtain ⟨e', s', hx, hbare, hp⟩ := expression_written he hs hsound
    have hc := Proceeds.checkOperand hp.tokens_eq e'
    have hcomma : (s'.checkOperand e').sees Code.comma = false := by
      apply sees_eq_false
      rw [hc.tokens_eq]
      exact hf
    rw [arguments_expression hx, hcomma]
    exact ⟨_, _, rfl, by rw [List.map_singleton, List.map_singleton, hbare], hp.trans hc⟩
  | cons he hcomma _ ih =>
    obtain ⟨e', s', hx, hbare, hp⟩ := expression_written he hs hsound
    have hc := Proceeds.checkOperand hp.tokens_eq e'
    have ha := Proceeds.advance hc.tokens_eq
    obtain ⟨es', s'', hy, hbares, hp'⟩ :=
      ih ha.tokens_eq ((hp.trans (hc.trans ha)).sound hsound) hf
    rw [arguments_expression hx, sees_of_tokens hc.tokens_eq, if_pos (hcomma.is (by decide)), hy]
    exact ⟨_, _, rfl, by rw [List.map_cons, List.map_cons, hbare, hbares],
      hp.trans (hc.trans (ha.trans hp'))⟩

theorem output_written (h : Written.Output args ts us) (hs : tokens s = l :: ts)
    (hl : l.Spells "(") (hsound : s.Sound) (w : Token) :
    ∃ args' s₁, output w s = (some (.writeln w args'), s₁.endStatement) ∧
      args'.map Expr.bare = args.map Expr.bare ∧ Proceeds s s₁ us := by
  have ha := Proceeds.advance hs
  have hleft : l.is Code.leftParen = true := hl.is (by decide)
  cases h with
  | @empty r _ hr =>
    have hright : r.is Code.rightParen = true := hr.is (by decide)
    rw [output, sees_of_tokens hs, if_pos hleft, sees_of_tokens ha.tokens_eq, if_pos hright]
    exact ⟨_, _, rfl, rfl, ha.trans (.advance ha.tokens_eq)⟩
  | @arguments _ _ r _ hargs hr =>
    have hright : r.is Code.rightParen = true := hr.is (by decide)
    obtain ⟨t, vs, hts, hstart⟩ := hargs.head
    have ht := ha.tokens_eq.trans hts
    have hnone := hstart (hsound.advance.coherent_of_tokens ht)
    have hcomma : ∀ t ∈ (r :: us).head?, t.is Code.comma = false := by
      intro t hmem
      obtain rfl : r = t := by simpa using hmem
      exact Token.is_eq_false hright (by decide)
    obtain ⟨es, s', hx, hbare, hp⟩ := arguments_written hargs ha.tokens_eq hsound.advance hcomma
    rw [output, sees_of_tokens hs, if_pos hleft, sees_of_tokens ht, hnone, if_neg (by decide), hx]
    dsimp only
    rw [sees_of_tokens hp.tokens_eq, if_pos hright]
    exact ⟨_, _, rfl, hbare, ha.trans (hp.trans (.advance hp.tokens_eq))⟩

theorem assignment_written (h : Written.Expression value ts us) (hs : tokens s = a :: ts)
    (ha : a.Spells ":=") (hsound : s.Sound) (target : Ident) :
    ∃ value' s₁, assignment target s = (some (.assign a target value'), s₁.endStatement) ∧
      value'.bare = value.bare ∧ Proceeds s s₁ us := by
  have hassign : a.is Code.assign = true := ha.is (by decide)
  have hp := Proceeds.advance hs
  obtain ⟨value', s', hx, hbare, hp'⟩ := expression_written h hp.tokens_eq hsound.advance
  have hc := Proceeds.checkAssignment hp'.tokens_eq target value'
  rw [assignment, here?_of_tokens hs]
  simp only [hassign, if_true, hx]
  exact ⟨_, _, rfl, hbare, hp.trans (hp'.trans hc)⟩

theorem statements_of_semicolon {s : Reader} (hs : s.tokens = t :: ts)
    (hend : isBlockEnd t = false) (hb : t.is Code.beginWord = false)
    (h : simpleStatement t s = (some st, s₁.endStatement)) (hp : Proceeds s s₁ (c :: us))
    (hc : c.Spells ";") :
    statements s = (st :: (statements s₁.advance).1, (statements s₁.advance).2) ∧
      Proceeds s s₁.advance us := by
  have hsemicolon : c.is Code.semicolon = true := hc.is (by decide)
  rw [statements_simple (here?_of_tokens hs) hend hb, h,
    endStatement_semicolon hp.tokens_eq hsemicolon]
  exact ⟨rfl, hp.trans (.advance hp.tokens_eq)⟩

mutual

/-- A statement is read as itself, and reading goes on after it. -/
theorem statement_written {s : Reader} (h : Written.Statement st ts us) (hs : s.tokens = ts)
    (hsound : s.Sound)
    (hf : st.isBlock = true → ∃ e vs, us = e :: vs ∧ e.is Code.endWord = true) :
    ∃ st' s₁, statements s = (st' :: (statements s₁).1, (statements s₁).2) ∧
      st'.bare = st.bare ∧ Proceeds s s₁ us :=
  match h with
  | @Written.Statement.assign _ _ _ _ u target t a hk hname ha hv hc => by
    have hcoherent := hsound.coherent_of_tokens hs
    have hp := Proceeds.advance hs
    have hend : isBlockEnd t = false := by
      rw [isBlockEnd, hcoherent.is_eq_false_of_ident hk (by decide),
        hcoherent.is_eq_false_of_ident hk (by decide)]
      rfl
    obtain ⟨value', s₁, hx, hbare, hp'⟩ :=
      assignment_written hv hp.tokens_eq ha hsound.advance ⟨t, t.lexeme⟩
    obtain ⟨hread, hpass⟩ := statements_of_semicolon hs hend
      (hcoherent.is_eq_false_of_ident hk (by decide))
      (by rw [simpleStatement, hcoherent.is_eq_false_of_ident hk (by decide), if_neg (by decide),
        if_pos hk, hx]) (hp.trans hp') hc
    refine ⟨_, _, hread, ?_, hpass⟩
    rw [Stmt.bare, Stmt.bare, hbare, Ident.bare, Ident.bare, hname]
  | @Written.Statement.output _ _ _ _ u w l hw hl ho hc => by
    have hcoherent := hsound.coherent_of_tokens hs
    have hword : w.is Code.writelnWord = true := hw.is (by decide)
    have hp := Proceeds.advance hs
    have hend : isBlockEnd w = false := by
      rw [isBlockEnd, Token.is_eq_false hword (by decide), Token.is_eq_false hword (by decide)]
      rfl
    obtain ⟨args', s₁, hx, hbare, hp'⟩ :=
      output_written ho hp.tokens_eq hl hsound.advance w
    obtain ⟨hread, hpass⟩ := statements_of_semicolon hs hend (Token.is_eq_false hword (by decide))
      (by rw [simpleStatement, Token.is_eq_false hword (by decide), if_neg (by decide),
        if_neg (hcoherent.kind_ne_ident hword (by decide)), if_pos hword, hx]) (hp.trans hp') hc
    refine ⟨_, _, hread, ?_, hpass⟩
    rw [Stmt.bare, Stmt.bare, hbare]
  | @Written.Statement.block _ _ e _ u b hb hinner he => by
    have hbegin : b.is Code.beginWord = true := hb.is (by decide)
    have hend : e.is Code.endWord = true := he.is (by decide)
    have hp := Proceeds.advance hs
    obtain ⟨hbare, hi⟩ := statements_written hinner hp.tokens_eq hsound.advance ⟨_, _, rfl, hend⟩
    have ha := Proceeds.advance hi.tokens_eq
    have hclose : (statements s.advance).2.closeBlock = (statements s.advance).2.advance := by
      rw [closeBlock, sees_of_tokens hi.tokens_eq, if_pos hend]
    -- No semicolon stands after a block, so an end must.
    obtain ⟨e', vs, rfl, he'⟩ := hf rfl
    have hread := statements_block (here?_of_tokens hs) hbegin
    rw [hclose, endStatement_end ha.tokens_eq (isBlockEnd_of_end he')] at hread
    refine ⟨_, _, hread, ?_, hp.trans (hi.trans ha)⟩
    rw [Stmt.bare, Stmt.bare, hbare]

theorem statements_written {s : Reader} (h : Written.Statements sts ts us) (hs : s.tokens = ts)
    (hsound : s.Sound) (hf : ∃ e vs, us = e :: vs ∧ e.is Code.endWord = true) :
    Stmt.bareAll (statements s).1 = Stmt.bareAll sts ∧ Proceeds s (statements s).2 us :=
  match h with
  | .nil => by
    obtain ⟨e, vs, rfl, he⟩ := hf
    rw [statements_end hs (isBlockEnd_of_end he)]
    exact ⟨rfl, .refl hs⟩
  | @Written.Statements.cons st _ vs _ _ hst hlast hrest => by
    have hblock : st.isBlock = true → ∃ e vs', vs = e :: vs' ∧ e.is Code.endWord = true := by
      intro hblock
      rw [hlast hblock] at hrest
      cases hrest with
      | nil => exact hf
    obtain ⟨st', s₁, hread, hbare, hp⟩ := statement_written hst hs hsound hblock
    obtain ⟨hbares, hi⟩ := statements_written hrest hp.tokens_eq (hp.sound hsound) hf
    rw [hread, Stmt.bareAll, Stmt.bareAll, hbare, hbares]
    exact ⟨rfl, hp.trans hi⟩

end

theorem variableSection_written {s : Reader} (hs : s.tokens = n :: c :: t :: e :: ts)
    (hk : n.kind = .ident) (hc : c.Spells ":") (ht : t.Spells type.name)
    (htype : type = .integer ∨ type = .real) (he : e.Spells ";") (hsound : s.Sound)
    (hf : ∃ u us, ts = u :: us ∧ (u.is Code.varWord = true ∨ u.is Code.beginWord = true)) :
    ∃ s', variableSection s = ([⟨n, n.lexeme, type⟩], s') ∧ Proceeds s s' ts := by
  have hp := Proceeds.advance hs
  have hcoherent := hsound.advance.coherent_of_tokens hp.tokens_eq
  have hcolon : s.advance.seesKind .colon = true := by
    simp [seesKind_of_tokens hp.tokens_eq, hc.kind_colon]
  have hp' := Proceeds.advance hp.tokens_eq
  have hp'' := Proceeds.advance hp'.tokens_eq
  have hnames : names s = (some [n], s.advance) := by
    rw [names_cons hs hk, sees_of_tokens hp.tokens_eq,
      hcoherent.is_eq_false_of_colon hc.kind_colon (by decide)]
    rfl
  have htyped : s.advance.typeAnnotation = (some type, s.advance.advance.advance) := by
    obtain ⟨hword, hcode⟩ := ht.ofCode? htype
    unfold typeAnnotation
    rw [if_pos hcolon, typeName, here?_of_tokens hp'.tokens_eq]
    simp only [hword, if_true, hcode]
  have hdeclared := Proceeds.declareAll hp''.tokens_eq [VarDecl.symbol ⟨n, n.lexeme, type⟩]
  have hline : variableLine s = ([⟨n, n.lexeme, type⟩],
      (s.advance.advance.advance.declareAll
        [VarDecl.symbol ⟨n, n.lexeme, type⟩]).expectSemicolon) := by
    simp [variableLine, hnames, htyped]
  have hpass : Proceeds s (variableLine s).2 ts := by
    rw [hline]
    exact hp.trans (hp'.trans (hp''.trans (hdeclared.trans
      (.expectSemicolon hdeclared.tokens_eq (he.is (by decide))))))
  obtain ⟨u, us, rfl, hu⟩ := hf
  have hident : s.seesKind .ident = true := by simp [seesKind_of_tokens hs, hk]
  have hstop : ¬ (variableLine s).2.seesKind .ident = true := by
    have hcoherent' := (hpass.sound hsound).coherent_of_tokens hpass.tokens_eq
    have hne : u.kind ≠ .ident := by
      rcases hu with hu | hu
      · exact hcoherent'.kind_ne_ident hu (by decide)
      · exact hcoherent'.kind_ne_ident hu (by decide)
    simp [seesKind_of_tokens hpass.tokens_eq, hne]
  have hrest : variableSection (variableLine s).2 = ([], (variableLine s).2) := by
    rw [variableSection, dif_neg hstop]
  refine ⟨_, ?_, hpass⟩
  rw [variableSection, dif_pos hident]
  dsimp only
  rw [hrest, hline]
  rfl

theorem declarations_written (h : Written.Variables ds ts us) (hs : tokens s = ts)
    (hsound : s.Sound) (hf : ∃ b vs, us = b :: vs ∧ b.is Code.beginWord = true) :
    ∃ ds' s', declarations s = ((ds', []), s') ∧ ds'.map VarDecl.bare = ds.map VarDecl.bare ∧
      Proceeds s s' us := by
  induction h generalizing s with
  | nil =>
    obtain ⟨b, vs, rfl, hb⟩ := hf
    rw [declarations_of_tokens hs, Token.is_eq_false hb (by decide),
      Token.is_eq_false hb (by decide), Token.is_eq_false hb (by decide)]
    exact ⟨_, _, rfl, rfl, .refl hs⟩
  | @cons ds ts us d v n c t e hv hk hname hc ht htype he hrest ih =>
    have hp := Proceeds.advance hs
    obtain ⟨s', hread, hp'⟩ := variableSection_written hp.tokens_eq hk hc ht htype he
      hsound.advance (hrest.head hf)
    obtain ⟨ds', s'', hmore, hbare, hp''⟩ :=
      ih hp'.tokens_eq (hp'.sound hsound.advance) hf
    rw [declarations_of_tokens hs, if_pos (hv.is (by decide)), hread, hmore]
    refine ⟨_, _, rfl, ?_, hp.trans (hp'.trans hp'')⟩
    rw [List.singleton_append, List.map_cons, List.map_cons, hbare, VarDecl.bare, VarDecl.bare,
      hname]

theorem header_written (h : Written.Heading name ts us) (hs : tokens s = ts)
    (hf : ∀ t ∈ us.head?, t.is Code.programWord = false) :
    ∃ s', header s = (name, s') ∧ Proceeds s s' us := by
  cases h with
  | none =>
    have hp : s.sees Code.programWord = false := by
      apply sees_eq_false
      rw [hs]
      exact hf
    rw [header, hp]
    exact ⟨_, rfl, .refl hs⟩
  | named hp hk hname hc =>
    have ha := Proceeds.advance hs
    have ha' := Proceeds.advance ha.tokens_eq
    rw [header, sees_of_tokens hs, if_pos (hp.is (by decide)), here?_of_tokens ha.tokens_eq]
    simp only [hk, if_true, hname]
    exact ⟨_, rfl, ha.trans (ha'.trans (.expectSemicolon ha'.tokens_eq (hc.is (by decide))))⟩

/-- A program that is written as tokens is read as itself without a report, and at its final
point all that happens is that brackets should be closed. -/
theorem program_written {s : Reader} (h : Written.Program p s.tokens) (hsound : s.Sound) :
    s.program.1.bare = p.bare ∧
      ∃ s' d, Proceeds s s' [d] ∧ s.program.2 = (s'.emit .balance).advance := by
  generalize hs : s.tokens = ts at h
  cases h with
  | @mk _ _ _ _ b vs _ e d _ hheading hvars hb hbody he hd =>
    have hbegin : b.is Code.beginWord = true := hb.is (by decide)
    have hend : e.is Code.endWord = true := he.is (by decide)
    have hfollow : ∃ b' vs', b :: vs = b' :: vs' ∧ b'.is Code.beginWord = true :=
      ⟨b, vs, rfl, hbegin⟩
    obtain ⟨w, ws, hw, hword⟩ := hvars.head hfollow
    obtain ⟨s₁, hname, hp₁⟩ := header_written hheading hs fun t ht => by
      obtain rfl : w = t := by simpa [hw] using ht
      rcases hword with hword | hword
      · exact Token.is_eq_false hword (by decide)
      · exact Token.is_eq_false hword (by decide)
    obtain ⟨vars', s₂, hdecls, hbare, hp₂⟩ :=
      declarations_written hvars hp₁.tokens_eq (hp₁.sound hsound) hfollow
    have hdeclared : s.declared = s₂ := by rw [declared, hname, hdecls]
    have hp₃ := hp₁.trans (hp₂.trans (.advance hp₂.tokens_eq))
    have hopen : s₂.openBody = s₂.advance := by
      rw [openBody, sees_of_tokens hp₂.tokens_eq, if_pos hbegin]
    obtain ⟨hbody', hp₄⟩ :=
      statements_written hbody hp₃.tokens_eq (hp₃.sound hsound) ⟨_, _, rfl, hend⟩
    have hclose : (statements s₂.advance).2.closeBlock = (statements s₂.advance).2.advance := by
      rw [closeBlock, sees_of_tokens hp₄.tokens_eq, if_pos hend]
    have hp₅ := hp₃.trans (hp₄.trans (.advance hp₄.tokens_eq))
    have hdot : d.is Code.dot = true := hd.is (by decide)
    rw [program_eq, hname, hdecls, hdeclared, block_eq, hopen, hclose]
    refine ⟨?_, _, d, hp₅, ?_⟩
    · simp only [Program.bare, hbare, Option.map_some, Block.bare, hbody']
    · have hlast : (((statements s₂.advance).2.advance.emit .balance).advance).atEnd = true :=
        atEnd_iff.2 (tokens_advance_of hp₅.tokens_eq)
      rw [terminator, sees_of_tokens hp₅.tokens_eq, if_pos hdot]
      exact if_pos hlast

end Reader

end PascalCheck
