import PascalCheck.Analysis.Report
import PascalCheck.Document.Basic

namespace PascalCheck

def Token.document (t : Token) : Document :=
  .record [("kind", .text t.kind.name), ("lexeme", .text t.lexeme), ("code", .int t.code),
    ("line", .int t.place.line), ("col", .int t.place.col)]

def Diagnostic.document (d : Diagnostic) : Document :=
  .record [("code", .int d.code), ("line", .int d.line), ("message", .text d.message)]

def Param.document (p : Param) : Document :=
  .record [("name", .text p.name), ("type", .text p.type.name)]

def Symbol.document (s : Symbol) : Document :=
  .record ([("name", .text s.name), ("type", .text s.type.name),
      ("is_function", .bool s.isFunction), ("line", .int s.line)] ++
    Document.optionalField "params" (!s.params.isEmpty) (.list (s.params.map Param.document)))

def Report.document (runId : String) (r : Report) : Document :=
  .record ([("run_id", .text runId)] ++
    Document.optionalField "program" (r.name != "") (.text r.name) ++
    Document.optionalField "tokens" (!r.tokens.isEmpty) (.list (r.tokens.map Token.document)) ++
    [("diagnostics", .list (r.diagnostics.map Diagnostic.document)),
      ("symbols", .list (r.symbols.map Symbol.document))])

/-- The tokens of a source and their diagnostics; something else stands for no tokens. -/
def Document.ofTokens (noTokens : Document) (tokens : List Token)
    (diagnostics : List Diagnostic) : Document :=
  .record [("tokens", if tokens.isEmpty then noTokens else .list (tokens.map Token.document)),
    ("diagnostics", .list (diagnostics.map Diagnostic.document))]

def Document.ofCodes (table : List (String × Int)) : Document :=
  .list (table.map fun (word, code) => .record [("code", .int code), ("lexeme", .text word)])

end PascalCheck
