import PascalCheck.Proofs.Written
import PascalCheck.Tree.Printer

namespace PascalCheck
set_option autoImplicit true

/-- The token is read from a source and reports nothing by itself. -/
structure Token.Accepted (t : Token) : Prop where
  isRead : ∃ p b bs, t = Layout.token p (Lexeme.read b bs)
  silent : t.cause? = none

/-- The name is that of a token. -/
structure Ident.Proper (x : Ident) : Prop where
  accepted : x.token.Accepted
  isName : x.token.kind = .ident
  name_eq : x.name = x.token.lexeme

/-- Names and numbers are those of tokens, and numbers are in range. -/
inductive Expr.Proper : Expr → Prop
  | ident : x.Proper → Proper (.ident x)
  | number (negated : Bool) : t.Accepted → t.kind = .number →
      (t.literal negated).check.causes = [] → Proper (.number t (t.literal negated).text t.isReal)
  | paren : Proper e → Proper (.paren t e)

inductive Stmt.Proper : Stmt → Prop
  | assign : target.Proper → value.Proper → Proper (.assign t target value)
  | writeln : (∀ e ∈ args, e.Proper) → Proper (.writeln t args)
  | block : (∀ s ∈ body, Proper s) → Proper (.block t body)

structure VarDecl.Proper (d : VarDecl) : Prop where
  accepted : d.token.Accepted
  isName : d.token.kind = .ident
  name_eq : d.name = d.token.lexeme
  isTyped : d.type = .integer ∨ d.type = .real

structure Program.Proper (p : Program) : Prop where
  name : p.name = "" ∨ ∃ t : Token, t.Accepted ∧ t.kind = .ident ∧ p.name = t.lexeme
  vars : ∀ d ∈ p.vars, d.Proper
  body : ∃ b, p.body = some b ∧ ∀ s ∈ b.body, s.Proper

mutual

/-- No block inside the statement is followed by another statement. -/
def Stmt.blocksLast : Stmt → Bool
  | .block _ body => Stmt.allBlocksLast body
  | _ => true

def Stmt.allBlocksLast : List Stmt → Bool
  | [] => true
  | s :: ss => (!s.isBlock || ss.isEmpty) && s.blocksLast && Stmt.allBlocksLast ss

end

def Program.blocksLast (p : Program) : Bool :=
  p.body.elim true fun b => Stmt.allBlocksLast b.body

/-- The first tokens start with a token, perhaps at another place, and go on with the second. -/
def Repeats (t : Token) (ts us : List Token) : Prop := ∃ p, ts = { t with place := p } :: us

namespace Token.Accepted

theorem scans {t : Token} (h : t.Accepted) (hk : t.kind = .ident ∨ t.kind = .number)
    (hrest : Lexeme.EndsNumber rest) : Scans (Repeats t) (utf8 t.lexeme) rest := by
  obtain ⟨p, b, bs, rfl⟩ := h.isRead
  have hends : Lexeme.EndsBefore (Lexeme.read b bs).text rest ∧
      Lexeme.ofText (Lexeme.read b bs).text = Lexeme.read b bs := by
    rcases hk with hk | hk
    · obtain ⟨hword, htext⟩ := Lexeme.isWord_of_ident hk
      exact ⟨hword.endsBefore hrest.endsWord, htext⟩
    · obtain ⟨hnumber, htext⟩ := Lexeme.isNumber_of_number hk
      exact ⟨hnumber.endsBefore hrest, htext⟩
  refine (Scans.text hends.1).mono ?_
  rintro ts us ⟨t, ⟨q, rfl⟩, rfl⟩
  rw [hends.2]
  exact ⟨q, rfl⟩

theorem endsMark {t : Token} (h : t.Accepted) (hk : t.kind = .ident ∨ t.kind = .number)
    (rest : List UInt8) : Lexeme.EndsMark (utf8 t.lexeme ++ rest) := by
  have hfirst : ∀ b : UInt8, Lexeme.isLetter b = true ∨ Lexeme.isDigit b = true ∨
      b = '.'.toUInt8 → b ≠ Filler.star ∧ b ≠ '='.toUInt8 := by
    grind [Lexeme.toUInt8_point, Lexeme.toUInt8_equals]
  obtain ⟨p, b, bs, rfl⟩ := h.isRead
  obtain ⟨c, cs, hbytes, hc⟩ : ∃ c cs, utf8 (Lexeme.read b bs).text = c :: cs ∧
      (Lexeme.isLetter c = true ∨ Lexeme.isDigit c = true ∨ c = '.'.toUInt8) := by
    rcases hk with hk | hk
    · obtain ⟨c, cs, htext, hc, hcs⟩ := (Lexeme.isWord_of_ident hk).1
      exact ⟨c, cs, by rw [htext, Lexeme.utf8_word hc hcs], .inl hc⟩
    · obtain ⟨c, cs, htext, hcs, hc⟩ := (Lexeme.isNumber_of_number hk).1
      rw [Bool.or_eq_true, Bool.and_eq_true, beq_iff_eq] at hc
      exact ⟨c, cs, by rw [htext, Lexeme.utf8_number hcs], .inr (hc.imp id And.left)⟩
  intro d hd
  have hbytes' : utf8 (Layout.token p (Lexeme.read b bs)).lexeme = c :: cs := hbytes
  obtain rfl : c = d := by simpa [hbytes'] using hd
  exact hfirst c hc

end Token.Accepted

def isDelimiter (b : UInt8) : Bool := b ∈ [0x0A, 0x20, 0x28, 0x29, 0x2C, 0x3A, 0x3B]

theorem isDelimiter_iff : isDelimiter b = true ↔
    b = 0x0A ∨ b = 0x20 ∨ b = 0x28 ∨ b = 0x29 ∨ b = 0x2C ∨ b = 0x3A ∨ b = 0x3B := by
  simp [isDelimiter]

def Delimited (rest : List UInt8) : Prop := rest.head?.any isDelimiter = true

instance (rest : List UInt8) : Decidable (Delimited rest) :=
  inferInstanceAs (Decidable (_ = true))

theorem Delimited.append (h : Delimited bs) (rest : List UInt8) : Delimited (bs ++ rest) := by
  cases bs with
  | nil => cases h
  | cons b bs => exact h

theorem Delimited.isDelimiter_of_mem (h : Delimited rest) (hb : b ∈ rest.head?) :
    isDelimiter b = true := by
  rw [Delimited, Option.mem_def.1 hb] at h
  exact h

theorem Delimited.endsNumber (h : Delimited rest) : Lexeme.EndsNumber rest := by
  have hclass : ∀ b : UInt8, isDelimiter b = true →
      Lexeme.isWordByte b = false ∧ b ≠ '.'.toUInt8 ∧ Lexeme.isSign b = false := by
    intro b hb
    rcases isDelimiter_iff.1 hb with rfl | rfl | rfl | rfl | rfl | rfl | rfl <;> decide
  exact fun b hb => hclass b (h.isDelimiter_of_mem hb)

theorem Delimited.endsMark (h : Delimited rest) : Lexeme.EndsMark rest := by
  have hclass : ∀ b : UInt8, isDelimiter b = true → b ≠ Filler.star ∧ b ≠ '='.toUInt8 := by
    intro b hb
    rcases isDelimiter_iff.1 hb with rfl | rfl | rfl | rfl | rfl | rfl | rfl <;> decide
  exact fun b hb => hclass b (h.isDelimiter_of_mem hb)

theorem delimited_mark {s : String} (h : s ∈ ["(", ")", ",", ":", ";"]) : Delimited (utf8 s) := by
  simp only [List.mem_cons, List.not_mem_nil, or_false] at h
  rw [utf8_eq]
  rcases h with rfl | rfl | rfl | rfl | rfl <;> rfl

theorem delimited_semicolon : Delimited (utf8 ";") := delimited_mark (by decide)

theorem delimited_rightParen : Delimited (utf8 ")") := delimited_mark (by decide)

theorem utf8_empty : utf8 "" = [] := by
  rw [utf8_eq]
  rfl

theorem utf8_append_blank (s : String) : utf8 (s ++ " ") = utf8 s ++ [0x20] := by
  rw [utf8_append, utf8_eq " "]
  rfl

theorem utf8_append_newline (s : String) : utf8 (s ++ "\n") = utf8 s ++ [0x0A] := by
  rw [utf8_append, utf8_eq "\n"]
  rfl

theorem utf8_begin : utf8 "begin\n" = utf8 "begin" ++ [0x0A] := utf8_append_newline "begin"

namespace Scans

theorem mark (hs : s ∈ ["(", ")", ",", "-", ":", ";"]) (hrest : Delimited rest) :
    Scans (Heads s) (utf8 s) rest :=
  .text (Lexeme.endsBefore_mark hs hrest.endsMark)

theorem after_mark (h : Scans W bs rest) (hbs : Delimited bs)
    (hs : s ∈ ["(", ")", ",", "-", ":", ";"]) :
    Scans (Relation.Comp (Heads s) W) (utf8 s ++ bs) rest :=
  (mark hs (hbs.append rest)).trans h

theorem word (hs : s ∈ ["program", "var", "integer", "real", "begin", "end", "writeln"])
    (hrest : Lexeme.EndsWord rest) : Scans (Heads s) (utf8 s) rest :=
  .text ((Lexeme.isWord_of_mem hs).endsBefore hrest)

theorem after_word (h : Scans W bs rest) (hbs : Delimited bs)
    (hs : s ∈ ["program", "var", "integer", "real", "begin", "end", "writeln"]) :
    Scans (Relation.Comp (Heads s) W) (utf8 s ++ bs) rest :=
  (word hs (hbs.append rest).endsNumber.endsWord).trans h

theorem after_token (h : Scans W bs rest) (hbs : Delimited bs) (ht : t.Accepted)
    (hk : t.kind = .ident ∨ t.kind = .number) :
    Scans (Relation.Comp (Repeats t) W) (utf8 t.lexeme ++ bs) rest :=
  (ht.scans hk (hbs.append rest).endsNumber).trans h

end Scans

namespace Expr.Proper

theorem endsMark {e : Expr} (h : e.Proper) (rest : List UInt8) :
    Lexeme.EndsMark (utf8 e.render ++ rest) := by
  cases h with
  | ident hx =>
    rw [render, hx.name_eq]
    exact hx.accepted.endsMark (.inl hx.isName) rest
  | number negated ht hk hcheck =>
    cases negated with
    | false => exact ht.endsMark (.inr hk) rest
    | true =>
      have hminus : utf8 "-" = [0x2D] := by
        rw [utf8_eq]
        rfl
      intro b hb
      obtain rfl : 0x2D = b := by
        simpa [render, Token.literal, hminus] using hb
      decide
  | paren h =>
    have hparen : utf8 "(" = [0x28] := by
      rw [utf8_eq]
      rfl
    intro b hb
    obtain rfl : 0x28 = b := by simpa [render, hparen] using hb
    decide

theorem scans {e : Expr} (h : e.Proper) (hrest : Delimited rest) :
    Scans (Written.Expression e) (utf8 e.render) rest := by
  induction h generalizing rest with
  | ident hx =>
    rw [render, hx.name_eq]
    refine (hx.accepted.scans (.inl hx.isName) hrest.endsNumber).mono ?_
    rintro ts us ⟨p, rfl⟩
    exact .name hx.isName hx.name_eq.symm
  | @number t negated ht hk hcheck =>
    have hnumber := ht.scans (.inr hk) hrest.endsNumber
    cases negated with
    | false =>
      refine hnumber.mono ?_
      rintro ts us ⟨p, rfl⟩
      exact .number (t := { t with place := p }) hk ⟨ht.silent, hcheck⟩
    | true =>
      have hminus : Scans (Heads "-") (utf8 "-") (utf8 t.lexeme ++ rest) :=
        .text (Lexeme.endsBefore_mark (by decide) (ht.endsMark (.inr hk) rest))
      simp only [render, Token.literal, if_true, utf8_append]
      refine (hminus.trans hnumber).mono ?_
      rintro ts us ⟨_, ⟨m, hm, rfl⟩, p, rfl⟩
      exact .negative (t := { t with place := p }) hm hk ⟨ht.silent, hcheck⟩
  | @paren e t h ih =>
    have hclose : Scans (Heads ")") (utf8 ")") rest := .mark (by decide) hrest
    have hopen : Scans (Heads "(") (utf8 "(") (utf8 e.render ++ utf8 ")" ++ rest) := by
      rw [List.append_assoc]
      exact .text (Lexeme.endsBefore_mark (by decide) (h.endsMark _))
    rw [render, utf8_append, utf8_append, List.append_assoc]
    refine (hopen.trans ((ih (delimited_rightParen.append rest)).trans hclose)).mono ?_
    rintro ts us ⟨_, ⟨l, hl, rfl⟩, _, he, r, hr, rfl⟩
    exact .paren hl he hr

end Expr.Proper

theorem scans_arguments {es : List Expr} (h : ∀ e ∈ es, e.Proper) (hne : es ≠ [])
    (hrest : Delimited rest) :
    Scans (Written.Arguments es) (utf8 (String.intercalate ", " (es.map Expr.render))) rest := by
  induction es with
  | nil => exact absurd rfl hne
  | cons e es ih =>
    have he := h e List.mem_cons_self
    cases es with
    | nil =>
      refine (he.scans hrest).mono ?_
      intro ts us hts
      exact .last hts
    | cons e' es =>
      have hmore := ih (fun e he => h e (List.mem_cons_of_mem _ he)) (List.cons_ne_nil _ _)
      have hseparator : utf8 ", " = utf8 "," ++ [0x20] := utf8_append_blank ","
      have hcomma : Delimited (utf8 ",") := delimited_mark (by decide)
      have hright := (hmore.blank 0x20 rfl).after_mark rfl (by decide : "," ∈ _)
      rw [List.map_cons, List.map_cons, String.intercalate_cons_cons, utf8_append, utf8_append,
        hseparator, List.append_assoc, List.append_assoc, List.singleton_append]
      refine ((he.scans ((hcomma.append _).append _)).trans hright).mono ?_
      rintro ts us ⟨_, hts, _, ⟨c, hc, rfl⟩, hmore⟩
      exact .cons hts hc hmore

theorem endsMark_arguments {es : List Expr} (h : ∀ e ∈ es, e.Proper) (hne : es ≠ [])
    (rest : List UInt8) :
    Lexeme.EndsMark (utf8 (String.intercalate ", " (es.map Expr.render)) ++ rest) := by
  cases es with
  | nil => exact absurd rfl hne
  | cons e es =>
    have he := h e List.mem_cons_self
    cases es with
    | nil => exact he.endsMark rest
    | cons e' es =>
      rw [List.map_cons, List.map_cons, String.intercalate_cons_cons, utf8_append, utf8_append,
        List.append_assoc, List.append_assoc]
      exact he.endsMark _

theorem scans_output {args : List Expr} (h : ∀ e ∈ args, e.Proper) (hrest : Delimited rest) :
    Scans (Relation.Comp (Heads "(") (Written.Output args))
      (utf8 "(" ++ (utf8 (String.intercalate ", " (args.map Expr.render)) ++ utf8 ")")) rest := by
  have hclose : Scans (Heads ")") (utf8 ")") rest := .mark (by decide) hrest
  cases args with
  | nil =>
    have hempty : utf8 (String.intercalate ", " (([] : List Expr).map Expr.render)) = [] :=
      utf8_empty
    rw [hempty, List.nil_append]
    refine (hclose.mono ?_).after_mark delimited_rightParen (by decide)
    rintro ts us ⟨r, hr, rfl⟩
    exact .empty hr
  | cons e es =>
    have hargs := scans_arguments h (List.cons_ne_nil e es) (delimited_rightParen.append rest)
    have hstart := endsMark_arguments h (List.cons_ne_nil e es) (utf8 ")" ++ rest)
    rw [← List.append_assoc] at hstart
    refine (Scans.text (Lexeme.endsBefore_mark (by decide) hstart)).trans
      ((hargs.trans hclose).mono ?_)
    rintro ts us ⟨_, hts, r, hr, rfl⟩
    exact .arguments hts hr

mutual

/-- The text of a statement is scanned to tokens that write it. -/
theorem Stmt.scans : (s : Stmt) → s.Proper → s.blocksLast = true → Delimited rest →
    Scans (Written.Statement s) (utf8 s.render) rest
  | .assign t target value, h, _, hrest => by
    obtain ⟨htarget, hvalue⟩ := h
    have hassign : utf8 " := " = 0x20 :: (utf8 ":=" ++ [0x20]) := by
      rw [utf8_eq, utf8_eq]
      rfl
    have hend : Scans (Heads ";") (utf8 ";") rest := .mark (by decide) hrest
    have hright := ((hvalue.scans (delimited_semicolon.append rest)).trans hend).blank 0x20 rfl
    have hmiddle := ((Scans.text (Lexeme.endsBefore_assign _)).trans hright).blank 0x20 rfl
    have hall := hmiddle.after_token rfl htarget.accepted (.inl htarget.isName)
    rw [render, htarget.name_eq, utf8_append, utf8_append, utf8_append, hassign]
    simp only [List.append_assoc, List.cons_append, List.nil_append]
    refine hall.mono ?_
    rintro ts us ⟨_, ⟨p, rfl⟩, _, ⟨a, ha, rfl⟩, _, hv, c, hc, rfl⟩
    exact .assign htarget.isName htarget.name_eq.symm ha hv hc
  | .writeln t args, h, _, hrest => by
    cases h with
    | writeln hargs =>
      have hopen : utf8 "writeln(" = utf8 "writeln" ++ utf8 "(" := utf8_append "writeln" "("
      have hclose : utf8 ");" = utf8 ")" ++ utf8 ";" := utf8_append ")" ";"
      have hleft : Delimited (utf8 "(") := delimited_mark (by decide)
      have hend : Scans (Heads ";") (utf8 ";") rest := .mark (by decide) hrest
      have hright := (scans_output hargs (delimited_semicolon.append rest)).trans hend
      have hall := hright.after_word ((hleft.append _).append _) (by decide : "writeln" ∈ _)
      rw [render, utf8_append, utf8_append, hopen, hclose]
      simp only [List.append_assoc] at hall ⊢
      refine hall.mono ?_
      rintro ts us ⟨_, ⟨w, hw, rfl⟩, _, ⟨_, ⟨l, hl, rfl⟩, ho⟩, c, hc, rfl⟩
      exact .output hw hl ho hc
  | .block t body, h, hblocks, hrest => by
    cases h with
    | block hbody =>
      have hend : Scans (Heads "end") (utf8 "end") rest :=
        .word (by decide) hrest.endsNumber.endsWord
      have hinner := (Stmt.scansAll body hbody hblocks (utf8 "end" ++ rest)).trans hend
      have hall := (hinner.blank 0x0A rfl).after_word rfl (by decide : "begin" ∈ _)
      rw [render, utf8_append, utf8_append, utf8_begin]
      simp only [List.append_assoc, List.singleton_append]
      refine hall.mono ?_
      rintro ts us ⟨_, ⟨b, hb, rfl⟩, _, hs, e, he, rfl⟩
      exact .block hb hs he

theorem Stmt.scansAll : (ss : List Stmt) → (∀ s ∈ ss, s.Proper) → allBlocksLast ss = true →
    (rest : List UInt8) → Scans (Written.Statements ss) (utf8 (renderLines ss)) rest
  | [], _, _, rest => by
    rw [renderLines, utf8_empty]
    refine (Scans.nil rest).mono ?_
    rintro ts us rfl
    exact .nil
  | s :: ss, h, hblocks, rest => by
    have hindent : utf8 "  " = [0x20, 0x20] := by
      rw [utf8_eq]
      rfl
    simp only [allBlocksLast, Bool.and_eq_true] at hblocks
    obtain ⟨⟨hlast, hinside⟩, hafter⟩ := hblocks
    have hmore := (Stmt.scansAll ss (fun s hs => h s (List.mem_cons_of_mem _ hs)) hafter rest).blank
      0x0A rfl
    have hdelimited : Delimited (0x0A :: utf8 (renderLines ss) ++ rest) := rfl
    have hfirst := (Stmt.scans s (h s List.mem_cons_self) hinside hdelimited).trans hmore
    rw [renderLines, utf8_append, utf8_append_newline, utf8_append, hindent]
    simp only [List.append_assoc, List.cons_append, List.nil_append]
    refine ((hfirst.blank 0x20 rfl).blank 0x20 rfl).mono ?_
    rintro ts us ⟨_, hs, hss⟩
    refine .cons hs ?_ hss
    intro hblock
    simpa [hblock] using hlast

end

theorem VarDecl.Proper.scans {d : VarDecl} (h : d.Proper)
    (k : Scans (Written.Variables ds) bs rest) :
    Scans (Written.Variables (d :: ds)) (utf8 (d.render ++ "\n") ++ bs) rest := by
  have hvar : utf8 "var " = utf8 "var" ++ [0x20] := utf8_append_blank "var"
  have hcolon : utf8 ": " = utf8 ":" ++ [0x20] := utf8_append_blank ":"
  have hmark : Delimited (utf8 ":") := delimited_mark (by decide)
  have htype : d.type.name ∈ ["program", "var", "integer", "real", "begin", "end", "writeln"] := by
    rcases h.isTyped with ht | ht <;> rw [ht] <;> decide
  have hend := (k.blank 0x0A rfl).after_mark rfl (by decide : ";" ∈ _)
  have hright := (hend.after_word (delimited_semicolon.append _) htype).blank 0x20 rfl
  have hname := (hright.after_mark rfl (by decide : ":" ∈ _)).after_token (hmark.append _)
    h.accepted (.inl h.isName)
  have hall := (hname.blank 0x20 rfl).after_word rfl (by decide : "var" ∈ _)
  rw [utf8_append_newline, render, h.name_eq]
  simp only [utf8_append, hvar, hcolon, List.append_assoc, List.cons_append, List.nil_append]
  refine hall.mono ?_
  rintro ts us
    ⟨_, ⟨v, hv, rfl⟩, _, ⟨p, rfl⟩, _, ⟨c, hc, rfl⟩, _, ⟨t, ht, rfl⟩, _, ⟨e, he, rfl⟩, hds⟩
  exact .cons hv h.isName h.name_eq.symm hc ht h.isTyped he hds

theorem scans_vars {ds : List VarDecl} (h : ∀ d ∈ ds, d.Proper) (rest : List UInt8) :
    Scans (Written.Variables ds) (utf8 (String.join (ds.map (·.render ++ "\n")))) rest := by
  induction ds with
  | nil =>
    rw [List.map_nil, String.join_nil, utf8_empty]
    refine (Scans.nil rest).mono ?_
    rintro ts us rfl
    exact .nil
  | cons d ds ih =>
    rw [List.map_cons, String.join_cons, utf8_append]
    exact (h d List.mem_cons_self).scans (ih fun d hd => h d (List.mem_cons_of_mem _ hd))

theorem scans_heading {name : String}
    (h : name = "" ∨ ∃ t : Token, t.Accepted ∧ t.kind = .ident ∧ name = t.lexeme)
    (rest : List UInt8) :
    Scans (Written.Heading name) (utf8 (if name = "" then "" else "program " ++ name ++ ";\n"))
      rest := by
  split
  · rename_i hname
    rw [hname, utf8_empty]
    refine (Scans.nil rest).mono ?_
    rintro ts us rfl
    exact .none
  · rename_i hname
    obtain ⟨t, ht, hk, rfl⟩ := h.resolve_left hname
    have hprogram : utf8 "program " = utf8 "program" ++ [0x20] := utf8_append_blank "program"
    have hsemicolon : utf8 ";\n" = utf8 ";" ++ [0x0A] := utf8_append_newline ";"
    have hend := ((Scans.nil rest).blank 0x0A rfl).after_mark rfl (by decide : ";" ∈ _)
    have hright := (hend.after_token (delimited_semicolon.append _) ht (.inl hk)).blank 0x20 rfl
    have hall := hright.after_word rfl (by decide : "program" ∈ _)
    rw [utf8_append, utf8_append, hprogram, hsemicolon]
    simp only [List.append_assoc, List.singleton_append]
    refine hall.mono ?_
    rintro ts us ⟨_, ⟨p, hp, rfl⟩, _, ⟨q, rfl⟩, _, ⟨c, hc, rfl⟩, rfl⟩
    exact .named hp hk rfl hc

theorem Program.Proper.scan {p : Program} (h : p.Proper) (hroutines : p.routines = [])
    (hblocks : p.blocksLast = true) :
    Written.Program p (Scan.ofBytes (utf8 p.render)).tokens ∧
      (Scan.ofBytes (utf8 p.render)).openQuote = none := by
  obtain ⟨name, vars, routines, body⟩ := p
  obtain rfl : routines = [] := hroutines
  obtain ⟨⟨u, body⟩, hbody, hproper⟩ := h.body
  obtain rfl : _ = some _ := hbody
  have hdot : utf8 "." = [0x2E] := by
    rw [utf8_eq]
    rfl
  have hpoint : Scans (Heads ".") (utf8 ".") [] := .text Lexeme.endsBefore_point
  have hfinal : Lexeme.EndsWord (utf8 "." ++ []) := by
    intro b hb
    obtain rfl : 0x2E = b := by simpa [hdot] using hb
    decide
  have hend := (Scans.word (by decide : "end" ∈ _) hfinal).trans hpoint
  have hinner := (Stmt.scansAll body hproper hblocks _).trans hend
  have hblock := (hinner.blank 0x0A rfl).after_word rfl (by decide : "begin" ∈ _)
  have hall := (scans_heading h.name _).trans ((scans_vars h.vars _).trans hblock)
  have hbytes : utf8 (render ⟨name, vars, [], some ⟨u, body⟩⟩) =
      utf8 (if name = "" then "" else "program " ++ name ++ ";\n") ++
        (utf8 (String.join (vars.map (·.render ++ "\n"))) ++
          (utf8 "begin" ++ 0x0A :: (utf8 (Stmt.renderLines body) ++
            (utf8 "end" ++ utf8 ".")))) := by
    simp only [render, Option.elim_some, Block.render, List.map_nil, String.join_nil, utf8_append,
      utf8_empty, utf8_begin, List.append_assoc, List.nil_append, List.cons_append]
  rw [hbytes]
  obtain ⟨htokens, hquote⟩ := hall.ofBytes
  refine ⟨?_, hquote⟩
  obtain ⟨_, hheading, _, hvars, _, ⟨b, hb, rfl⟩, _, hbody, _, ⟨e, he, rfl⟩, d, hd, rfl⟩ := htokens
  exact .mk hheading hvars hb hbody he hd

end PascalCheck
