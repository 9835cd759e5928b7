import PascalCheck.Analysis.Report

namespace PascalCheck
set_option autoImplicit true

/-- What is kept of a source: the case of letters, the layout, which is where things stand and
whether a string is left open, and the illegal characters. -/
structure View where
  keepsCase : Bool
  keepsLayout : Bool
  keepsIllegal : Bool

namespace View

def caseless : View := ⟨false, true, true⟩

def unplaced : View := ⟨true, false, true⟩

def legal : View := ⟨true, true, false⟩

def char (v : View) (c : Char) : Char := if v.keepsCase then c else c.toLower

def text (v : View) (s : String) : String := String.ofList (s.toList.map v.char)

/-- A line number, zero if the layout is not kept. -/
def line {α : Type} [OfNat α 0] (v : View) (n : α) : α := if v.keepsLayout then n else 0

def place (v : View) (p : Position) : Position := if v.keepsLayout then p else ⟨0, 0⟩

def openQuote (v : View) (line? : Option Nat) : Option Nat := if v.keepsLayout then line? else none

def shows (v : View) (t : Token) : Bool := v.keepsIllegal || t.kind != .unknown

end View

def Token.view (v : View) (t : Token) : Token := ⟨t.kind, v.text t.lexeme, t.code, v.place t.place⟩

def Scan.view (v : View) (s : Scan) : Scan where
  tokens := (s.tokens.filter v.shows).map (Token.view v)
  final := s.final.view v
  openQuote := v.openQuote s.openQuote

def Literal.view (v : View) (l : Literal) : Literal := ⟨v.text l.text, l.isReal⟩

def Param.view (v : View) (p : Param) : Param := ⟨v.text p.name, p.type, v.place p.place⟩

def Symbol.view (v : View) (s : Symbol) : Symbol :=
  ⟨v.text s.name, s.type, s.isFunction, v.line s.line, s.params.map (Param.view v)⟩

def BracketFault.view (v : View) : BracketFault → BracketFault
  | .unclosed opened line => .unclosed opened (v.line line)
  | f => f

def Mismatch.view (v : View) : Mismatch → Mismatch
  | .realLiteral text target => .realLiteral (v.text text) (v.text target)
  | .realSource source target => .realSource (v.text source) (v.text target)
  | .noValue source => .noValue (v.text source)

def Cause.view (v : View) : Cause → Cause
  | .unexpected wanted got => .unexpected wanted (v.text got)
  | .notAVariable name => .notAVariable (v.text name)
  | .undeclared name => .undeclared (v.text name)
  | .duplicate name => .duplicate (v.text name)
  | .mismatch m => .mismatch (m.view v)
  | .invalidLiteral text => .invalidLiteral (v.text text)
  | .integerRange text => .integerRange (v.text text)
  | .realRange text => .realRange (v.text text)
  | .bracket f => .bracket (f.view v)
  | .invalidCharacter text => .invalidCharacter (v.text text)
  | c => c

def Event.view (v : View) : Event → Event
  | .scanned t => .scanned (t.view v)
  | .ended openQuote => .ended (v.openQuote openQuote)
  | .balance => .balance
  | .literal l line => .literal (l.view v) (v.line line)
  | .fault cause line => .fault (cause.view v) (v.line line)
  | .declare s => .declare (s.view v)
  | .use name line => .use (v.text name) (v.line line)
  | .assign name l line => .assign (v.text name) (l.view v) (v.line line)
  | .assignName target source line =>
    .assignName (v.text target) (v.text source) (v.line line)

def View.showsEvent (v : View) : Event → Bool
  | .scanned t => v.shows t
  | _ => true

def View.events (v : View) (es : List Event) : List Event :=
  (es.filter v.showsEvent).map (Event.view v)

def Ident.view (v : View) (id : Ident) : Ident := ⟨id.token.view v, v.text id.name⟩

def Expr.view (v : View) : Expr → Expr
  | .absent => .absent
  | .ident id => .ident (id.view v)
  | .number token text isReal => .number (token.view v) (v.text text) isReal
  | .paren token inner => .paren (token.view v) (inner.view v)

mutual

def Stmt.view (v : View) : Stmt → Stmt
  | .assign token target value => .assign (token.view v) (target.view v) (value.view v)
  | .writeln token args => .writeln (token.view v) (args.map (Expr.view v))
  | .block token body => .block (token.view v) (Stmt.viewAll v body)

def Stmt.viewAll (v : View) : List Stmt → List Stmt
  | [] => []
  | s :: ss => s.view v :: Stmt.viewAll v ss

end

def Block.view (v : View) (b : Block) : Block := ⟨b.token.view v, Stmt.viewAll v b.body⟩

def VarDecl.view (v : View) (d : VarDecl) : VarDecl := ⟨d.token.view v, v.text d.name, d.type⟩

def Routine.view (v : View) (r : Routine) : Routine :=
  ⟨r.token.view v, v.text r.name, r.params.map (Param.view v), r.result, r.isFunction⟩

def Program.view (v : View) (p : Program) : Program where
  name := v.text p.name
  vars := p.vars.map (VarDecl.view v)
  routines := p.routines.map (Routine.view v)
  body := p.body.map (Block.view v)

theorem toLower_of_not_ascii {c : Char} (h : 128 ≤ c.toNat) : c.toLower = c := by
  unfold Char.toLower
  split
  · rename_i hc
    have hle : c.toNat ≤ 90 := by simpa [UInt32.le_iff_toNat_le] using hc.2
    omega
  · rfl

theorem apply_toLower {f : Char → α}
    (h : ∀ n < 128, f (Char.ofNat n).toLower = f (Char.ofNat n)) (c : Char) :
    f c.toLower = f c := by
  by_cases hc : c.toNat < 128
  · have hn := h c.toNat hc
    rwa [Char.ofNat_toNat] at hn
  · rw [toLower_of_not_ascii (by omega)]

namespace View

variable (v : View)

theorem char_eq_self {c : Char} (h : c.toLower = c) : v.char c = c := by
  unfold char
  split
  · rfl
  · exact h

theorem apply_char {f : Char → α}
    (h : ∀ n < 128, f (Char.ofNat n).toLower = f (Char.ofNat n)) (c : Char) :
    f (v.char c) = f c := by
  unfold char
  split
  · rfl
  · exact apply_toLower h c

@[simp] theorem toList_text (s : String) : (v.text s).toList = s.toList.map v.char := by
  simp [text]

@[simp] theorem text_append (s t : String) : v.text (s ++ t) = v.text s ++ v.text t := by
  apply String.toList_injective
  simp

theorem text_of_keepsCase {v : View} (h : v.keepsCase = true) (s : String) : v.text s = s := by
  have hchar : v.char = id := by
    funext c
    simp [char, h]
  apply String.toList_injective
  rw [toList_text, hchar, List.map_id]

theorem text_eq_self {s : String} (h : s.toList.map Char.toLower = s.toList) :
    v.text s = s := by
  by_cases hk : v.keepsCase = true
  · exact text_of_keepsCase hk s
  · have hchar : v.char = Char.toLower := by
      funext c
      simp [char, hk]
    apply String.toList_injective
    rw [toList_text, hchar, h]

@[simp] theorem text_empty : v.text "" = "" := rfl

@[simp] theorem lower_text (s : String) : Text.lower (v.text s) = Text.lower s := by
  apply String.toList_injective
  rw [Text.toList_lower, toList_text, List.map_map, Text.toList_lower]
  exact List.map_congr_left fun c _ => v.apply_char (by decide) c

@[simp] theorem cast_line (n : Nat) : ((v.line n : Nat) : Int) = v.line (n : Int) := by
  unfold line
  split <;> rfl

@[simp] theorem line_place (p : Position) : (v.place p).line = v.line p.line := by
  unfold place line
  split <;> rfl

theorem filter_shows {v : View} (h : v.keepsIllegal = true) (ts : List Token) :
    ts.filter v.shows = ts := by
  simp [shows, h]

@[simp] theorem events_nil : v.events [] = [] := rfl

@[simp] theorem events_append (es fs : List Event) :
    v.events (es ++ fs) = v.events es ++ v.events fs := by
  simp [events]

theorem events_cons {e : Event} (h : v.showsEvent e = true) (es : List Event) :
    v.events (e :: es) = e.view v :: v.events es := by
  simp [events, h]

theorem events_hidden {e : Event} (h : v.showsEvent e = false) (es : List Event) :
    v.events (e :: es) = v.events es := by
  simp [events, h]

end View

namespace Token

variable (v : View) (t : Token)

@[simp] theorem kind_view : (t.view v).kind = t.kind := rfl

@[simp] theorem lexeme_view : (t.view v).lexeme = v.text t.lexeme := rfl

@[simp] theorem code_view : (t.view v).code = t.code := rfl

@[simp] theorem place_view : (t.view v).place = v.place t.place := rfl

@[simp] theorem is_view (code : Int) : (t.view v).is code = t.is code := rfl

@[simp] theorem isReal_view : (t.view v).isReal = t.isReal := rfl

@[simp] theorem line_view : (t.view v).line = v.line t.line := v.line_place t.place

@[simp] theorem describe_view : (t.view v).describe = v.text t.describe := by
  have hend : v.text Kind.endOfInput.name = Kind.endOfInput.name := v.text_eq_self (by decide)
  have hquote : v.text "'" = "'" := v.text_eq_self (by decide)
  unfold describe
  split
  · rename_i hk
    rw [kind_view] at hk
    rw [if_pos hk, hend]
  · rename_i hk
    rw [kind_view] at hk
    rw [if_neg hk, View.text_append, View.text_append, hquote, lexeme_view]

@[simp] theorem literal_view (negated : Bool) :
    (t.view v).literal negated = (t.literal negated).view v := by
  have hminus : v.text "-" = "-" := v.text_eq_self (by decide)
  unfold literal Literal.view
  split
  · simp [hminus]
  · simp

@[simp] theorem literalEvents_view (negated : Bool) :
    (t.view v).literalEvents negated = v.events (t.literalEvents negated) := by
  unfold literalEvents
  split
  · rename_i hk
    rw [kind_view] at hk
    rw [if_pos hk, literal_view, line_view]
    rfl
  · rename_i hk
    rw [kind_view] at hk
    rw [if_neg hk]
    rfl

end Token

@[simp] theorem Expr.unparen_view (v : View) (e : Expr) :
    (e.view v).unparen = e.unparen.view v := by
  induction e with
  | absent => rfl
  | ident id => rfl
  | number token text isReal => rfl
  | paren token inner ih =>
    cases inner with
    | absent => rfl
    | _ => exact ih

@[simp] theorem Stmt.viewAll_append (v : View) (ss ss' : List Stmt) :
    viewAll v (ss ++ ss') = viewAll v ss ++ viewAll v ss' := by
  induction ss with
  | nil => rfl
  | cons s ss ih => simp [viewAll, ih]

theorem Stmt.viewAll_toList (v : View) (s? : Option Stmt) :
    viewAll v s?.toList = (s?.map (Stmt.view v)).toList := by
  cases s? <;> rfl

@[simp] theorem VarDecl.symbol_view (v : View) (d : VarDecl) :
    (d.view v).symbol = d.symbol.view v := by
  simp [symbol, view, Symbol.view]

@[simp] theorem Routine.symbol_view (v : View) (r : Routine) :
    (r.view v).symbol = r.symbol.view v := by
  simp [symbol, view, Symbol.view]

end PascalCheck
