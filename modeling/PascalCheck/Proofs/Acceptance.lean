import PascalCheck.Proofs.Faults
import PascalCheck.Proofs.Grammar.Statements

namespace PascalCheck
set_option autoImplicit true

def legalTokens (source : List UInt8) : List Token :=
  (tokenize source).1.filter (·.kind ≠ .unknown)

theorem tokens_ofScan_eq_legalTokens (source : List UInt8) :
    (Reader.ofScan (Scan.ofBytes source)).tokens = legalTokens source :=
  Reader.tokens_ofScan _

/-- Without a limit, no violation of the grammar is reported exactly for programs. -/
theorem no_syntax_iff_program (source : List UInt8) (o : Options) (h : o.maxDiagnostics ≤ 0) :
    (∀ d ∈ (analyze source o).diagnostics, ¬ d.IsSyntax) ↔
      Grammar.Program Grammar.NestedHeader (legalTokens source) := by
  rw [no_syntax_iff_clean h, ← tokens_ofScan_eq_legalTokens]
  exact Reader.clean_program_iff (Reader.sound_ofScan source) (Reader.clean_ofScan _)

/-- A source with a routine, whose body has a nested one, and a block with an assignment. -/
def sampleProgram : List UInt8 :=
  "procedure p; function f(x: real); forward; begin end; begin p := (-1) end.".toUTF8.toList

theorem program_sampleProgram :
    (0 : Int) ≤ 0 ∧ Grammar.Program Grammar.NestedHeader (legalTokens sampleProgram) :=
  ⟨Int.le_refl 0, (no_syntax_iff_program sampleProgram ⟨false, 0⟩ (Int.le_refl 0)).1
    (by decide +kernel)⟩

namespace OpenHeader
open Grammar

/-- A source with a semicolon inside the parentheses of a nested routine. -/
def source : List UInt8 :=
  "procedure p; procedure q(; forward;); begin end; begin end.".toUTF8.toList

def word (lexeme : String) (code : Int) (col : Nat) : Token := ⟨.keyword, lexeme, code, ⟨1, col⟩⟩

def name (lexeme : String) (col : Nat) : Token := ⟨.ident, lexeme, Code.ident, ⟨1, col⟩⟩

def mark (lexeme : String) (code : Int) (col : Nat) : Token := ⟨.operator, lexeme, code, ⟨1, col⟩⟩

def block : List Token := [word "begin" 113 50, word "end" 104 56, mark "." 61 59]

def compound : List Token :=
  word "begin" 113 39 :: word "end" 104 45 :: mark ";" 14 48 :: block

def header : List Token := [name "q" 24, mark "(" 9 25]

def body : List Token :=
  word "procedure" 124 14 :: (header ++ mark ";" 14 26 :: name "forward" 28 :: mark ";" 14 35 ::
    mark ")" 4 36 :: mark ";" 14 37 :: compound)

theorem tokens_source :
    legalTokens source = word "procedure" 124 1 :: name "p" 11 :: mark ";" 14 12 :: body := by
  decide +kernel

theorem noOuterSemicolon_header : NoOuterSemicolon header := by
  intro before c after hsplit hc
  have hmem : c ∈ header := by simp [hsplit]
  obtain rfl | rfl : c = name "q" 24 ∨ c = mark "(" 9 25 := by simpa [header] using hmem
  · exact absurd hc (by decide)
  · exact absurd hc (by decide)

theorem locals_body : Locals NoOuterSemicolon body compound :=
  .routine (.inr (by decide)) noOuterSemicolon_header (by decide)
    (.forward ⟨rfl, by decide⟩ (by decide))
    (.token (by decide) (by decide) (.token (by decide) (by decide) .nil))

theorem body_block : Body NoOuterSemicolon body block := by
  refine .block ?_ locals_body (Reader.compound_empty (by decide) (by decide)) (by decide)
  intro f hf
  obtain rfl : word "procedure" 124 14 = f := by simpa [body] using hf
  decide

theorem program_source : Grammar.Program NoOuterSemicolon (legalTokens source) := by
  rw [tokens_source]
  exact .mk .none (.routine (.procedure (by decide) rfl .none (by decide) body_block) .nil)
    (.mk (by decide) .nil (by decide)) (by decide)

end OpenHeader

/-- It is not enough that no semicolon of the header itself stands outside of parentheses. -/
theorem not_forall_no_syntax_iff_noOuterSemicolon :
    ¬ ∀ (source : List UInt8) (o : Options), o.maxDiagnostics ≤ 0 →
      ((∀ d ∈ (analyze source o).diagnostics, ¬ d.IsSyntax) ↔
        Grammar.Program Grammar.NoOuterSemicolon (legalTokens source)) := by
  intro h
  have hclean := (h OpenHeader.source ⟨false, 0⟩ (Int.le_refl 0)).2 OpenHeader.program_source
  exact absurd hclean (by decide +kernel)

end PascalCheck
