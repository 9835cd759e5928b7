import PascalCheck.Proofs.Blanking
import PascalCheck.Proofs.Literals
import PascalCheck.Proofs.View.Checks

namespace PascalCheck
set_option autoImplicit true

theorem Diagnostic.view_legal (d : Diagnostic) : d.view .legal = d := by
  have hkept : ¬ (d.code = 116 ∧ View.legal.keepsLayout = false) := by simp [View.legal]
  rw [view, if_neg hkept, View.text_of_keepsCase rfl]
  rfl

theorem View.diagnostics_legal (ds : List Diagnostic) :
    View.legal.diagnostics ds = ds.filter (·.code ≠ 118) := by
  have hshows : View.legal.showsDiagnostic = fun d => decide (d.code ≠ 118) := by
    funext d
    by_cases hd : d.code = 118 <;> simp [View.showsDiagnostic, View.legal, hd]
  rw [View.diagnostics, List.map_id'' Diagnostic.view_legal, hshows]

theorem Scan.view_blanked (source : List UInt8) :
    (ofBytes (blanked source)).view .legal = (ofBytes source).view .legal := by
  have hview (ts : List Token) : ts.map (Token.view .legal) = ts :=
    List.map_id'' View.plain_legal.token ts
  rw [ofBytes_blanked]
  simp only [view, hview, List.filter_filter, Bool.and_self, View.plain_legal.token]
  rfl

theorem not_illegal_of_mem_attempts (h : d ∈ Run.fresh.attempts (trace (blanked source))) :
    d.code ≠ 118 := by
  intro hc
  obtain ⟨before, e, after, htrace, hr⟩ := Run.exists_of_mem_attempts h
  obtain ⟨c, n, hf, rfl⟩ := Scan.exists_faulty_of_mem_reports htrace hr (by simp [hc])
  cases hf with
  | character ht hk =>
    rw [Scan.ofBytes_blanked] at ht
    obtain ⟨t, hmem, rfl⟩ := List.mem_map.1 ht
    have hshown := (List.mem_filter.1 hmem).2
    rw [Token.kind_view] at hk
    simp [View.shows, View.legal, hk] at hshown
  | range _ _ _ hcode =>
    rw [Cause.code_onLine] at hc
    omega
  | _ => simp [Cause.code_onLine, Cause.code] at hc

theorem attempts_blanked (source : List UInt8) :
    Run.fresh.attempts (trace (blanked source)) =
      (Run.fresh.attempts (trace source)).filter (·.code ≠ 118) := by
  have hsame := View.attempts_eq (Scan.view_blanked source)
  rw [View.diagnostics_legal, View.diagnostics_legal] at hsame
  rw [← hsame, List.filter_eq_self.2]
  intro d hd
  simpa using not_illegal_of_mem_attempts hd

/-- A source and the source with a blank in place of every illegal character have the same tree,
symbols and name, and the same diagnostics in the same order but for those about illegal
characters. -/
theorem illegal_characters_only_reported (source : List UInt8) (o o' : Options)
    (ho : o.maxDiagnostics ≤ 0) (ho' : o'.maxDiagnostics ≤ 0) :
    (analyze (blanked source) o').program = (analyze source o).program ∧
      (analyze (blanked source) o').symbols = (analyze source o).symbols ∧
      (analyze (blanked source) o').name = (analyze source o).name ∧
      (analyze (blanked source) o').diagnostics =
        (analyze source o).diagnostics.filter (·.code ≠ 118) := by
  have hview := Scan.view_blanked source
  have hprogram : (analyze (blanked source) o').program = (analyze source o).program := by
    rw [← View.plain_legal.program (analyze (blanked source) o').program,
      ← View.plain_legal.program (analyze source o).program]
    exact View.program_eq hview
  have hsymbols : (analyze (blanked source) o').symbols = (analyze source o).symbols := by
    rw [← List.map_id'' View.plain_legal.symbol (analyze (blanked source) o').symbols,
      ← List.map_id'' View.plain_legal.symbol (analyze source o).symbols]
    exact View.symbols_eq hview
  refine ⟨hprogram, hsymbols, congrArg Program.name hprogram, ?_⟩
  rw [diagnostics_analyze, diagnostics_analyze, attempts_blanked]
  exact Sink.list_addAll_filter ho' ho rfl _

/-- A source with illegal characters next to a sign, before a star and inside a comment. -/
def strayCharacters : List UInt8 := "begin x:=-@70000; (@*) (*$*) end.".toUTF8.toList

theorem illegal_characters_only_reported_strayCharacters :
    blanked strayCharacters = "begin x:=- 70000; ( *) (*$*) end.".toUTF8.toList ∧
      (analyze (blanked strayCharacters) ⟨false, 0⟩).diagnostics =
        (analyze strayCharacters ⟨false, 0⟩).diagnostics.filter (·.code ≠ 118) := by
  refine ⟨by decide +kernel, ?_⟩
  exact (illegal_characters_only_reported strayCharacters ⟨false, 0⟩ ⟨false, 0⟩ (Int.le_refl 0)
    (Int.le_refl 0)).2.2.2

end PascalCheck
