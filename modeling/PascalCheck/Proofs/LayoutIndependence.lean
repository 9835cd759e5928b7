import PascalCheck.Proofs.Literals
import PascalCheck.Proofs.Streams
import PascalCheck.Proofs.View.Checks

namespace PascalCheck
set_option autoImplicit true

def Token.spelling (t : Token) : Kind × String × Int := (t.kind, t.lexeme, t.code)

theorem Scan.spelling_final (source : List UInt8) :
    (ofBytes source).final.spelling = (.endOfInput, "", Code.endOfInput) := rfl

theorem Scan.view_unplaced_eq
    (h : (ofBytes a).tokens.map Token.spelling = (ofBytes b).tokens.map Token.spelling) :
    (ofBytes a).view .unplaced = (ofBytes b).view .unplaced := by
  have hview (ts : List Token) : (ts.filter View.unplaced.shows).map (Token.view .unplaced) =
      (ts.map Token.spelling).map fun s => ⟨s.1, View.unplaced.text s.2.1, s.2.2, ⟨0, 0⟩⟩ := by
    rw [View.filter_shows rfl, List.map_map]
    rfl
  unfold Scan.view
  rw [hview, hview, h]
  rfl

theorem exists_openQuote_of_mem {o : Options} (ho : o.maxDiagnostics ≤ 0)
    (hd : d ∈ (analyze source o).diagnostics) (hc : d.code = 117) :
    ∃ n, (Scan.ofBytes source).openQuote = some n := by
  obtain ⟨before, e, after, htrace, hr⟩ :=
    Run.exists_of_mem_attempts ((mem_diagnostics_analyze ho).1 hd)
  obtain ⟨c, n, hf, rfl⟩ := Scan.exists_faulty_of_mem_reports htrace hr (by simp [hc])
  cases hf with
  | string hq => exact ⟨_, hq⟩
  | range _ _ _ hcode =>
    rw [Cause.code_onLine] at hc
    omega
  | _ => simp [Cause.code_onLine, Cause.code] at hc

section Same

variable {a b : List UInt8} {o o' : Options}

/-- A diagnostic that is not about brackets has its like, on some line, in the report of a source
with the same tokens. -/
theorem exists_same_message (h : (Scan.ofBytes a).view .unplaced = (Scan.ofBytes b).view .unplaced)
    (ho : o.maxDiagnostics ≤ 0) (ho' : o'.maxDiagnostics ≤ 0)
    (hd : d ∈ (analyze a o).diagnostics) (hc : d.code ≠ 117) :
    ∃ d' ∈ (analyze b o').diagnostics,
      d'.code = d.code ∧ (d.code ≠ 116 → d'.message = d.message) := by
  obtain ⟨d', hd', hlook⟩ :=
    View.exists_mem_diagnostics h ho ho' hd (by simp [View.showsDiagnostic, View.unplaced, hc])
  have hcode : (d'.view .unplaced).code = (d.view .unplaced).code := by rw [hlook]
  have hmessage : (d'.view .unplaced).message = (d.view .unplaced).message := by rw [hlook]
  refine ⟨d', hd', hcode, ?_⟩
  intro hb
  have hb' : d'.code ≠ 116 := hcode ▸ hb
  simpa [Diagnostic.view, hb, hb', View.text_of_keepsCase (v := .unplaced) rfl] using hmessage

theorem ok_of_same (h : (Scan.ofBytes a).view .unplaced = (Scan.ofBytes b).view .unplaced)
    (ho : o.maxDiagnostics ≤ 0) (ho' : o'.maxDiagnostics ≤ 0)
    (hq : (Scan.ofBytes b).openQuote = none) (hok : (analyze a o).ok = true) :
    (analyze b o').ok = true := by
  refine Report.ok_of_forall (fun d hd => ?_) hok
  have hc : d.code ≠ 117 := by
    intro hc
    obtain ⟨n, hn⟩ := exists_openQuote_of_mem ho' hd hc
    rw [hq] at hn
    cases hn
  obtain ⟨d', hd', -⟩ := exists_same_message h.symm ho' ho hd hc
  exact ⟨d', hd'⟩

end Same

/-- Sources whose streams agree on kind, spelling and code token by token have trees and symbols
that differ in the places of tokens only, report the same messages under every code but those of
brackets and open strings, and both or neither report brackets. If neither ends inside a string,
both or neither have problems. -/
theorem analysis_independent_of_layout (a b : List UInt8) (o o' : Options)
    (ho : o.maxDiagnostics ≤ 0) (ho' : o'.maxDiagnostics ≤ 0)
    (h : ∀ n, ((Stream.ofBytes a .empty).tokenAt n).spelling =
      ((Stream.ofBytes b .empty).tokenAt n).spelling) :
    (analyze a o).program.view .unplaced = (analyze b o').program.view .unplaced ∧
      (analyze a o).symbols.map (Symbol.view .unplaced) =
        (analyze b o').symbols.map (Symbol.view .unplaced) ∧
      (∀ (code : Int) (message : String), code ≠ 116 → code ≠ 117 →
        ((∃ d ∈ (analyze a o).diagnostics, d.code = code ∧ d.message = message) ↔
          ∃ d ∈ (analyze b o').diagnostics, d.code = code ∧ d.message = message)) ∧
      ((∃ d ∈ (analyze a o).diagnostics, d.code = 116) ↔
        ∃ d ∈ (analyze b o').diagnostics, d.code = 116) ∧
      ((Scan.ofBytes a).openQuote = none → (Scan.ofBytes b).openQuote = none →
        (analyze a o).ok = (analyze b o').ok) := by
  have hsame : (Scan.ofBytes a).view .unplaced = (Scan.ofBytes b).view .unplaced :=
    Scan.view_unplaced_eq (Stream.map_tokens_eq (fun _ _ ht => congrArg Prod.fst ht) h)
  refine ⟨View.program_eq hsame, View.symbols_eq hsame, ?_, ?_, ?_⟩
  · intro code message hb hq
    constructor
    · rintro ⟨d, hd, rfl, rfl⟩
      obtain ⟨d', hd', hcode, hmessage⟩ := exists_same_message hsame ho ho' hd hq
      exact ⟨d', hd', hcode, hmessage hb⟩
    · rintro ⟨d, hd, rfl, rfl⟩
      obtain ⟨d', hd', hcode, hmessage⟩ := exists_same_message hsame.symm ho' ho hd hq
      exact ⟨d', hd', hcode, hmessage hb⟩
  · constructor
    · rintro ⟨d, hd, hc⟩
      obtain ⟨d', hd', hcode, -⟩ := exists_same_message hsame ho ho' hd (by simp [hc])
      exact ⟨d', hd', hcode.trans hc⟩
    · rintro ⟨d, hd, hc⟩
      obtain ⟨d', hd', hcode, -⟩ := exists_same_message hsame.symm ho' ho hd (by simp [hc])
      exact ⟨d', hd', hcode.trans hc⟩
  · intro hqa hqb
    rw [Bool.eq_iff_iff]
    exact ⟨ok_of_same hsame ho ho' hqb, ok_of_same hsame.symm ho' ho hqa⟩

def closeParameter : List UInt8 := "procedure p(a:integer);forward;begin x:=1 end.".toUTF8.toList

/-- The tokens of `closeParameter` with a blank before the parameter, and a comment. -/
def spacedParameter : List UInt8 :=
  "procedure p( a:integer);forward;\nbegin (* x *) x:=1 end.".toUTF8.toList

theorem spelling_closeParameter (n : Nat) :
    ((Stream.ofBytes closeParameter .empty).tokenAt n).spelling =
      ((Stream.ofBytes spacedParameter .empty).tokenAt n).spelling := by
  have htokens : (Scan.ofBytes closeParameter).tokens.map Token.spelling =
      (Scan.ofBytes spacedParameter).tokens.map Token.spelling := by
    decide +kernel
  have hfinal : (Scan.ofBytes closeParameter).final.spelling =
      (Scan.ofBytes spacedParameter).final.spelling := by
    rw [Scan.spelling_final, Scan.spelling_final]
  exact Stream.apply_tokenAt_eq htokens hfinal _ _ n

/-- A blank, a line break and a comment do not change what is said of the undeclared name. -/
theorem analysis_independent_of_comment :
    ((∃ d ∈ (analyze closeParameter ⟨false, 0⟩).diagnostics,
        d.code = 106 ∧ d.message = "undeclared variable 'x'") ↔
      ∃ d ∈ (analyze spacedParameter ⟨false, 0⟩).diagnostics,
        d.code = 106 ∧ d.message = "undeclared variable 'x'") :=
  (analysis_independent_of_layout closeParameter spacedParameter ⟨false, 0⟩ ⟨false, 0⟩
    (Int.le_refl 0) (Int.le_refl 0) spelling_closeParameter).2.2.1 106 _ (by decide) (by decide)

def Symbol.withoutLines (s : Symbol) : Symbol :=
  { s with line := 0, params := s.params.map fun p => { p with place := ⟨0, p.place.col⟩ } }

/-- A symbol keeps the columns of its parameters, which depend on the layout. -/
theorem not_forall_symbols_equal_without_lines :
    ¬ ∀ (a b : List UInt8) (o : Options), o.maxDiagnostics ≤ 0 →
      (∀ n, ((Stream.ofBytes a .empty).tokenAt n).spelling =
        ((Stream.ofBytes b .empty).tokenAt n).spelling) →
      (analyze a o).symbols.map Symbol.withoutLines =
        (analyze b o).symbols.map Symbol.withoutLines := by
  intro h
  exact absurd (h closeParameter spacedParameter ⟨false, 0⟩ (Int.le_refl 0) spelling_closeParameter)
    (by decide +kernel)

end PascalCheck
