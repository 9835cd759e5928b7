import Mathlib.Control.Traversable.Basic
import PascalCheck.Command.Run
import PascalCheck.Proofs.Report

namespace PascalCheck
set_option autoImplicit true

namespace Command

theorem status_printReport (format : OutputFormat) (look : Look) (runId file : String)
    (r : Report) : (printReport format look runId file r).status = if r.ok then 0 else 1 := rfl

theorem status_printReport_analyze (format : OutputFormat) (look : Look) (runId file : String)
    (source : List UInt8) (o o' : Options) :
    (printReport format look runId file (analyze source o)).status =
      (printReport format look runId file (analyze source o')).status := by
  rw [status_printReport, status_printReport, ok_analyze source o false, ok_analyze source o' false]

variable {m : Type → Type} [Monad m] [LawfulMonad m]

theorem status_perform_check (host : Host m) (fs : Flags) (args : List String) (s : Settings)
    (tokens : Bool) (maxDiagnostics : Int) (tokensFlag : Option Bool)
    (maxDiagnosticsFlag : Option Int) :
    Outcome.status <$> perform host .check
        { fs with tokens := tokensFlag, maxDiagnostics := maxDiagnosticsFlag } args
        { s with tokens, maxDiagnostics } =
      Outcome.status <$> perform host .check fs args s := by
  cases args with
  | nil => rfl
  | cons path args =>
    simp only [perform, map_bind]
    congr
    funext read
    cases read with
    | error message => rfl
    | ok source =>
      simp only [map_bind, map_pure]
      congr
      funext runId
      rw [status_printReport_analyze]

end Command

/-- Under any options a report has the tree, the name and the symbols of the report without a
limit and the first of its diagnostics; its tokens are those of the source if they are asked for.
So neither the verdict nor the exit status of a check depends on the options. -/
theorem options_truncate_or_add (source : List UInt8) (o : Options) :
    ((analyze source o).diagnostics =
        if 0 < o.maxDiagnostics then
          (analyze source ⟨false, 0⟩).diagnostics.take o.maxDiagnostics.toNat
        else (analyze source ⟨false, 0⟩).diagnostics) ∧
      (analyze source o).program = (analyze source ⟨false, 0⟩).program ∧
      (analyze source o).name = (analyze source ⟨false, 0⟩).name ∧
      (analyze source o).symbols = (analyze source ⟨false, 0⟩).symbols ∧
      analyze source { o with tokens := true } =
        { analyze source { o with tokens := false } with tokens := (tokenize source).1 } ∧
      (analyze source o).tokens = (if o.tokens then (tokenize source).1 else []) ∧
      (analyze source o).ok = (analyze source ⟨false, 0⟩).ok ∧
      ∀ {m : Type → Type} [Monad m] [LawfulMonad m] (host : Command.Host m) (fs : Command.Flags)
        (args : List String) (s : Settings) (tokens : Bool) (maxDiagnostics : Int)
        (tokensFlag : Option Bool) (maxDiagnosticsFlag : Option Int),
        Command.Outcome.status <$> Command.perform host .check
            { fs with tokens := tokensFlag, maxDiagnostics := maxDiagnosticsFlag } args
            { s with tokens, maxDiagnostics } =
          Command.Outcome.status <$> Command.perform host .check fs args s := by
  have hprogram : (analyze source o).program = (analyze source ⟨false, 0⟩).program := by
    rw [program_analyze, program_analyze]
  refine ⟨diagnostics_analyze_eq_take source o false, hprogram, congrArg Program.name hprogram, ?_,
    rfl, rfl, ok_analyze source o false, ?_⟩
  · rw [symbols_analyze, symbols_analyze]
  · intro m _ _ host fs args s tokens maxDiagnostics tokensFlag maxDiagnosticsFlag
    exact Command.status_perform_check host fs args s tokens maxDiagnostics tokensFlag
      maxDiagnosticsFlag

/-- A source with two problems. -/
def twoProblems : List UInt8 := "begin x := 40000 end.".toUTF8.toList

def inputHost (source : List UInt8) : Command.Host Id where
  files := ⟨fun _ => .error .notFound, fun _ => ""⟩
  input := source
  runId := "run"
  runtime := ""
  platform := ""
  colors := false

/-- A limit of one and the list of tokens leave the first of two problems and the status. -/
theorem options_truncate_twoProblems :
    (analyze twoProblems ⟨true, 1⟩).diagnostics =
        (analyze twoProblems ⟨false, 0⟩).diagnostics.take 1 ∧
      (analyze twoProblems ⟨false, 0⟩).diagnostics.length = 2 ∧
      Command.Outcome.status <$> Command.perform (inputHost twoProblems) .check
          { Command.Flags.none with tokens := some true, maxDiagnostics := some 1 } ["-"]
          Settings.defaults =
        Command.Outcome.status <$> Command.perform (inputHost twoProblems) .check
          Command.Flags.none ["-"] Settings.defaults := by
  obtain ⟨hlimit, -, -, -, -, -, -, hstatus⟩ := options_truncate_or_add twoProblems ⟨true, 1⟩
  exact ⟨hlimit, by decide +kernel,
    hstatus (inputHost twoProblems) .none ["-"] .defaults false 0 (some true) (some 1)⟩

end PascalCheck
