import Mathlib.Algebra.Ring.Int.Defs
import PascalCheck.Symbol.Basic
import PascalCheck.Token.Basic

namespace PascalCheck.Grammar
set_option autoImplicit true

inductive Names : List Token → List Token → Prop
  | last : t.kind = .ident → Names (t :: ts) ts
  | cons : t.kind = .ident → c.is Code.comma = true → Names ts rest → Names (t :: c :: ts) rest

inductive Typed : List Token → List Token → Prop
  | mk : c.kind = .colon → t.kind = .keyword → t.code = Code.integerWord ∨ t.code = Code.realWord →
      Typed (c :: t :: ts) ts

/-- Lines of variables, each with its semicolon. -/
inductive Variables : List Token → List Token → Prop
  | nil : Variables ts ts
  | cons : Names ts ts₁ → Typed ts₁ (c :: ts₂) → c.is Code.semicolon = true →
      Variables ts₂ rest → Variables ts rest

inductive Marked : List Token → List Token → Prop
  | plain : Marked ts ts
  | marked : v.is Code.varWord = true → Marked (v :: ts) ts

/-- Groups of parameters with semicolons between them, and the closing parenthesis. -/
inductive Groups : List Token → List Token → Prop
  | last : Marked ts ts₁ → Names ts₁ ts₂ → Typed ts₂ (r :: rest) → r.is Code.rightParen = true →
      Groups ts rest
  | cons : Marked ts ts₁ → Names ts₁ ts₂ → Typed ts₂ (c :: ts₃) → c.is Code.semicolon = true →
      Groups ts₃ rest → Groups ts rest

inductive Params : List Token → List Token → Prop
  | none : Params ts ts
  | empty : l.is Code.leftParen = true → r.is Code.rightParen = true → Params (l :: r :: ts) ts
  | groups : l.is Code.leftParen = true → Groups ts rest → Params (l :: ts) rest

def parenChange (t : Token) : Int :=
  if t.is Code.leftParen then 1 else if t.is Code.rightParen then -1 else 0

/-- The depth of parentheses after tokens. -/
def parenDepth (ts : List Token) : Int := (ts.map parenChange).sum

/-- No semicolon stands outside of parentheses. -/
def NoOuterSemicolon (header : List Token) : Prop :=
  ∀ before c after, header = before ++ c :: after → c.is Code.semicolon = true →
    0 < parenDepth before

/-- The header of a nested routine: no semicolon stands outside of parentheses, and all that were
opened are closed. -/
def NestedHeader (header : List Token) : Prop :=
  NoOuterSemicolon header ∧ parenDepth header ≤ 0

def levelChange (t : Token) : Int :=
  if t.is Code.beginWord || t.is Code.caseWord || t.is Code.recordWord then 1
  else if t.is Code.endWord then -1 else 0

/-- The number of open levels after tokens. -/
def level (ts : List Token) : Int := (ts.map levelChange).sum

/-- A compound statement: from a begin up to the end that closes the last open level. -/
inductive Compound : List Token → List Token → Prop
  | mk : b.is Code.beginWord = true → level (b :: inside) = 0 →
      (∀ front, front <+: inside → front ≠ inside → 0 < level (b :: front)) →
      Compound (b :: (inside ++ rest)) rest

def IsForward (t : Token) : Prop := t.kind = .ident ∧ Text.lower t.lexeme = "forward"

instance (t : Token) : Decidable (IsForward t) := inferInstanceAs (Decidable (_ ∧ _))

def IsRoutineWord (t : Token) : Prop :=
  t.is Code.functionWord = true ∨ t.is Code.procedureWord = true

instance (t : Token) : Decidable (IsRoutineWord t) := inferInstanceAs (Decidable (_ ∨ _))

section Bodies

-- Which tokens may stand between the word of a nested routine and its semicolon.
variable (Header : List Token → Prop)

mutual

/-- The body of a routine with its semicolon, or the directive in its place. -/
inductive Body : List Token → List Token → Prop
  | forward : IsForward f → c.is Code.semicolon = true → Body (f :: c :: rest) rest
  | block : (∀ f ∈ ts.head?, ¬ IsForward f) → Locals ts ts₁ → Compound ts₁ (c :: rest) →
      c.is Code.semicolon = true → Body ts rest

/-- Local declarations: nested routines, and any tokens that start neither a routine nor a
compound statement. -/
inductive Locals : List Token → List Token → Prop
  | nil : Locals ts ts
  | token : ¬ IsRoutineWord t → t.is Code.beginWord = false → Locals ts rest →
      Locals (t :: ts) rest
  | routine : IsRoutineWord w → Header header → c.is Code.semicolon = true → Body ts ts₁ →
      Locals ts₁ rest → Locals (w :: (header ++ c :: ts)) rest

end

inductive Routine : List Token → List Token → Prop
  | function : w.is Code.functionWord = true → n.kind = .ident → Params ts ts₁ →
      Typed ts₁ (c :: ts₂) → c.is Code.semicolon = true → Body Header ts₂ rest →
      Routine (w :: n :: ts) rest
  | procedure : w.is Code.procedureWord = true → n.kind = .ident → Params ts (c :: ts₁) →
      c.is Code.semicolon = true → Body Header ts₁ rest → Routine (w :: n :: ts) rest

inductive Declarations : List Token → List Token → Prop
  | nil : Declarations ts ts
  | vars : v.is Code.varWord = true → Variables ts ts₁ → Declarations ts₁ rest →
      Declarations (v :: ts) rest
  | routine : Routine Header ts ts₁ → Declarations ts₁ rest → Declarations ts rest

end Bodies

inductive Expression : List Token → List Token → Prop
  | signed : sign.is Code.plus = true ∨ sign.is Code.minus = true → t.kind = .number →
      Expression (sign :: t :: ts) ts
  | number : t.kind = .number → Expression (t :: ts) ts
  | name : t.kind = .ident → Expression (t :: ts) ts
  | paren : l.is Code.leftParen = true → Expression ts (r :: rest) →
      r.is Code.rightParen = true → Expression (l :: ts) rest

inductive Arguments : List Token → List Token → Prop
  | last : Expression ts rest → Arguments ts rest
  | cons : Expression ts (c :: ts₁) → c.is Code.comma = true → Arguments ts₁ rest →
      Arguments ts rest

inductive Output : List Token → List Token → Prop
  | none : Output ts ts
  | empty : l.is Code.leftParen = true → r.is Code.rightParen = true → Output (l :: r :: ts) ts
  | arguments : l.is Code.leftParen = true → Arguments ts (r :: rest) →
      r.is Code.rightParen = true → Output (l :: ts) rest

mutual

inductive Statement : List Token → List Token → Prop
  | assign : t.kind = .ident → a.is Code.assign = true → Expression ts rest →
      Statement (t :: a :: ts) rest
  | output : w.is Code.writelnWord = true → Output ts rest → Statement (w :: ts) rest
  | block : b.is Code.beginWord = true → Statements ts (e :: rest) → e.is Code.endWord = true →
      Statement (b :: ts) rest

/-- Statements with semicolons between them; a semicolon may also stand alone or at the end. -/
inductive Statements : List Token → List Token → Prop
  | nil : Statements ts ts
  | empty : c.is Code.semicolon = true → Statements ts rest → Statements (c :: ts) rest
  | last : Statement ts rest → Statements ts rest
  | cons : Statement ts (c :: ts₁) → c.is Code.semicolon = true → Statements ts₁ rest →
      Statements ts rest

end

inductive Block : List Token → List Token → Prop
  | mk : b.is Code.beginWord = true → Statements ts (e :: rest) → e.is Code.endWord = true →
      Block (b :: ts) rest

inductive Heading : List Token → List Token → Prop
  | none : Heading ts ts
  | named : p.is Code.programWord = true → n.kind = .ident → c.is Code.semicolon = true →
      Heading (p :: n :: c :: ts) ts

/-- A whole program, with nothing after its point, over tokens without illegal characters. A rule
relates the tokens it is read from to those left after it.

    Program    := [ program Ident ; ] Decls Block .
    Decls      := { var { Names : Type ; } | Routine }
    Names      := Ident { , Ident }
    Type       := integer | real
    Routine    := ( function Ident [ Params ] : Type | procedure Ident [ Params ] ) ; Body
    Params     := ( [ Group { ; Group } ] )
    Group      := [ var ] Names : Type
    Body       := forward ; | Locals Compound ;
    Locals     := { other token | ( function | procedure ) Header ; Body }
    Compound   := begin ... end, with begin, case and record each closed by an end
    Block      := begin Statements end
    Statements := { ; } [ Statement [ ; Statements ] ]
    Statement  := Ident := Expr | writeln [ ( [ Expr { , Expr } ] ) ] | Block
    Expr       := [ + | - ] Number | Ident | ( Expr )
-/
inductive Program (Header : List Token → Prop) : List Token → Prop
  | mk : Heading ts ts₁ → Declarations Header ts₁ ts₂ → Block ts₂ [d] → d.is Code.dot = true →
      Program Header ts

end PascalCheck.Grammar
