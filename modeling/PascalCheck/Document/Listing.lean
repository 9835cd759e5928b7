import PascalCheck.Analysis.Report
import PascalCheck.Document.Basic
import PascalCheck.Text.Columns

namespace PascalCheck

/-- A part of a line that is set off by its color. -/
inductive Style where
  | file
  | code
  | category
  | ok
  | muted
deriving DecidableEq, Repr

def Style.codes : Style → String
  | .file => "1"
  | .code => "1;38;2;239;68;68"
  | .category => "38;2;245;158;11"
  | .ok => "1;38;2;16;185;129"
  | .muted => "38;2;107;113;128"

/-- How a listing sets off the parts of its lines: not at all, or in styles, which the terminal
shows in colors or leaves out. -/
inductive Look where
  | plain
  | styled (colors : Bool)
deriving DecidableEq, Repr

namespace Listing

def withoutTabs (s : String) : String :=
  String.join (s.toList.map fun c => if c = '\t' then "    " else c.toString)

/-- The lines of a text; a carriage return before the end of a line is part of that end. -/
def linesOf : List Char → List (List Char)
  | [] => [[]]
  | '\r' :: '\n' :: cs => [] :: linesOf cs
  | '\n' :: cs => [] :: linesOf cs
  | c :: cs =>
    match linesOf cs with
    | [] => [[c]]
    | l :: ls => (c :: l) :: ls

def styledLine (colors : Bool) (style : Style) (line : List Char) : String :=
  if colors then "\x1b[" ++ style.codes ++ "m" ++ String.ofList line ++ "\x1b[0m"
  else String.ofList line

/-- Lines with blanks after them up to the widest of them. -/
def flush (lines : List String) : List String :=
  let widest := (lines.map Text.columns).foldl max 0
  lines.map fun l => l ++ Document.blanks (widest - Text.columns l)

/-- A text in a style: the lines of a styled text are equally wide. -/
def paint (look : Look) (style : Style) (s : String) : String :=
  match look with
  | .plain => withoutTabs s
  | .styled colors =>
    let lines := (linesOf (withoutTabs s).toList).map (styledLine colors style)
    String.intercalate "\n" (flush lines)

def padLeft (width : Nat) (s : String) : String := Document.blanks (width - s.length) ++ s

def padRight (width : Nat) (s : String) : String := s ++ Document.blanks (width - s.length)

def tokenLine (look : Look) (t : Token) : String :=
  let place := padLeft 4 (toString t.place.line) ++ ":" ++ padRight 3 (toString t.place.col)
  paint look .muted place ++ "  " ++ padRight 12 t.kind.name ++ " " ++
    padLeft 4 (toString t.code) ++ "  " ++ t.lexeme ++ "\n"

def diagnosticLine (look : Look) (file : String) (d : Diagnostic) : String :=
  paint look .file (file ++ ":" ++ toString d.line ++ ":") ++ " " ++
    paint look .code ("error " ++ toString d.code) ++ " " ++
    paint look .category ("[" ++ d.category.name ++ "]") ++ " " ++ d.message ++ "\n"

def diagnostics (look : Look) (file : String) (ds : List Diagnostic) : String :=
  String.join (ds.map (diagnosticLine look file)) ++
    if ds.isEmpty then ""
    else paint look .code (toString ds.length ++ " error(s)") ++ "\n"

def tokens (look : Look) (file : String) (ts : List Token) (ds : List Diagnostic) : String :=
  String.join (ts.map (tokenLine look)) ++ diagnostics look file ds

def report (look : Look) (file : String) (r : Report) : String :=
  let name := if r.name = "" then "(unnamed)" else r.name
  tokens look file r.tokens r.diagnostics ++
    if r.ok then
      paint look .file (file ++ ":") ++ " " ++ paint look .ok "OK" ++ " " ++
        paint look .muted
          ("program " ++ name ++ ", " ++ toString r.symbols.length ++ " symbol(s)") ++ "\n"
    else ""

def codes (look : Look) (table : List (String × Int)) : String :=
  String.join (table.map fun (word, code) =>
    paint look .muted (padLeft 4 (toString code)) ++ "  " ++ word ++ "\n")

end Listing

end PascalCheck
