import PascalCheck.Proofs.View.Basic

namespace PascalCheck
set_option autoImplicit true

/-- The view leaves out at most the illegal characters. -/
structure View.Plain (v : View) : Prop where
  keepsCase : v.keepsCase = true
  keepsLayout : v.keepsLayout = true

namespace View

def whole : View := ⟨true, true, true⟩

theorem plain_whole : whole.Plain := ⟨rfl, rfl⟩

theorem plain_legal : legal.Plain := ⟨rfl, rfl⟩

theorem showsEvent_whole (e : Event) : whole.showsEvent e = true := by
  cases e <;> rfl

namespace Plain

variable {v : View}

theorem text (h : v.Plain) (s : String) : v.text s = s := text_of_keepsCase h.keepsCase s

theorem line {α : Type} [OfNat α 0] (h : v.Plain) (n : α) : v.line n = n := if_pos h.keepsLayout

theorem place (h : v.Plain) (p : Position) : v.place p = p := if_pos h.keepsLayout

theorem openQuote (h : v.Plain) (line? : Option Nat) : v.openQuote line? = line? :=
  if_pos h.keepsLayout

theorem token (h : v.Plain) (t : Token) : t.view v = t := by
  rw [Token.view, h.text, h.place]

theorem literal (h : v.Plain) (l : Literal) : l.view v = l := by
  rw [Literal.view, h.text]

theorem param (h : v.Plain) (p : Param) : p.view v = p := by
  rw [Param.view, h.text, h.place]

theorem symbol (h : v.Plain) (s : Symbol) : s.view v = s := by
  rw [Symbol.view, h.text, h.line, List.map_id'' h.param]

theorem bracketFault (h : v.Plain) (f : BracketFault) : f.view v = f := by
  cases f with
  | unclosed opened line => rw [BracketFault.view, h.line]
  | _ => rfl

theorem mismatch (h : v.Plain) (m : Mismatch) : m.view v = m := by
  cases m <;> simp only [Mismatch.view, h.text]

theorem cause (h : v.Plain) (c : Cause) : c.view v = c := by
  cases c <;> simp only [Cause.view, h.text, h.mismatch, h.bracketFault]

theorem event (h : v.Plain) (e : Event) : e.view v = e := by
  cases e <;>
    simp only [Event.view, h.token, h.openQuote, h.literal, h.cause, h.symbol, h.text, h.line]

theorem ident (h : v.Plain) (id : Ident) : id.view v = id := by
  rw [Ident.view, h.text, h.token]

theorem expr (h : v.Plain) (e : Expr) : e.view v = e := by
  induction e with
  | absent => rfl
  | ident id => rw [Expr.view, h.ident]
  | number token text isReal => rw [Expr.view, h.token, h.text]
  | paren token inner ih => rw [Expr.view, h.token, ih]

mutual

theorem stmt (h : v.Plain) : (s : Stmt) → s.view v = s
  | .assign token target value => by rw [Stmt.view, h.token, h.ident, h.expr]
  | .writeln token args => by rw [Stmt.view, h.token, List.map_id'' h.expr]
  | .block token body => by rw [Stmt.view, h.token, h.stmts body]

theorem stmts (h : v.Plain) : (ss : List Stmt) → Stmt.viewAll v ss = ss
  | [] => rfl
  | s :: ss => by rw [Stmt.viewAll, h.stmt s, h.stmts ss]

end

theorem block (h : v.Plain) (b : Block) : b.view v = b := by
  rw [Block.view, h.token, h.stmts]

theorem varDecl (h : v.Plain) (d : VarDecl) : d.view v = d := by
  rw [VarDecl.view, h.token, h.text]

theorem routine (h : v.Plain) (r : Routine) : r.view v = r := by
  rw [Routine.view, h.token, h.text, List.map_id'' h.param]

theorem program (h : v.Plain) (p : Program) : p.view v = p := by
  have hbody : p.body.map (Block.view v) = p.body := by
    rw [funext h.block]
    exact Option.map_id'
  rw [Program.view, h.text, List.map_id'' h.varDecl, List.map_id'' h.routine, hbody]

end Plain

end View

end PascalCheck
