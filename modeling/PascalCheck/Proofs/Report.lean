import PascalCheck.Proofs.Attempts
import PascalCheck.Proofs.InStep

namespace PascalCheck
set_option autoImplicit true

/-- The events of reading a source. -/
def trace (source : List UInt8) : List Event := (Program.ofScan (Scan.ofBytes source)).2

def Run.fresh : Run := .ofChecker (.ofSink .empty)

theorem Run.agrees_fresh (sink : Sink) : Agrees (.ofChecker (.ofSink sink)) fresh := ⟨rfl, rfl⟩

namespace Checker

theorem tree_read (c : Checker) (source : List UInt8) :
    (c.read source).1 = (Program.ofScan (Scan.ofBytes source)).1 := by
  rw [read_eq]

theorem state_read (c : Checker) (source : List UInt8) :
    (c.read source).2 = ((Run.ofChecker c).replay (trace source)).checker := by
  rw [read_eq, trace]

theorem sink_read (c : Checker) (source : List UInt8) :
    (c.read source).2.sink = c.sink.addAll ((Run.ofChecker c).attempts (trace source)) := by
  rw [state_read]
  exact Run.sink_replay _ _

end Checker

theorem diagnostics_analyze (source : List UInt8) (o : Options) :
    (analyze source o).diagnostics =
      ((Sink.empty.setLimit o.maxDiagnostics).addAll (Run.fresh.attempts (trace source))).list := by
  rw [← (Run.agrees_fresh _).attempts]
  exact congrArg Sink.list
    (Checker.sink_read (.ofSink (Sink.empty.setLimit o.maxDiagnostics)) source)

theorem symbols_analyze (source : List UInt8) (o : Options) :
    (analyze source o).symbols = (Run.fresh.replay (trace source)).checker.table.symbols := by
  have hstate := Checker.state_read (.ofSink (Sink.empty.setLimit o.maxDiagnostics)) source
  have htable := ((Run.agrees_fresh (Sink.empty.setLimit o.maxDiagnostics)).replay
    (trace source)).table
  exact congrArg SymbolTable.symbols ((congrArg Checker.table hstate).trans htable)

/-- The tree does not depend on what is done with the events. -/
theorem program_analyze (source : List UInt8) (o : Options) :
    (analyze source o).program = (Program.ofScan (Scan.ofBytes source)).1 :=
  Checker.tree_read (.ofSink (Sink.empty.setLimit o.maxDiagnostics)) source

theorem mem_list_replay_fresh :
    d ∈ (Run.fresh.replay es).checker.sink.list ↔ d ∈ Run.fresh.attempts es := by
  rw [Run.sink_replay, Sink.mem_addAll (Int.le_refl 0)]
  simp [Run.fresh, Run.ofChecker, Checker.ofSink, Sink.empty]

theorem mem_diagnostics_analyze {o : Options} (h : o.maxDiagnostics ≤ 0) :
    d ∈ (analyze source o).diagnostics ↔ d ∈ Run.fresh.attempts (trace source) := by
  rw [diagnostics_analyze, Sink.mem_addAll h]
  simp [Sink.setLimit, Sink.empty]

theorem nodup_diagnostics (source : List UInt8) (o : Options) :
    (analyze source o).diagnostics.Nodup := by
  rw [diagnostics_analyze]
  exact Sink.nodup_addAll List.nodup_nil _

theorem diagnostics_analyze_eq_take (source : List UInt8) (o : Options) (tokens : Bool) :
    (analyze source o).diagnostics =
      if 0 < o.maxDiagnostics then
        (analyze source ⟨tokens, 0⟩).diagnostics.take o.maxDiagnostics.toNat
      else (analyze source ⟨tokens, 0⟩).diagnostics := by
  have hstart := Sink.truncates_empty o.maxDiagnostics
  have hend := (hstart.addAll (Run.fresh.attempts (trace source))).list_eq
  rw [Sink.limit_addAll] at hend
  rw [diagnostics_analyze, diagnostics_analyze]
  exact hend

/-- A report has no problems if each would have its like in a report without any. -/
theorem Report.ok_of_forall {r r' : Report}
    (h : ∀ d ∈ r'.diagnostics, ∃ d', d' ∈ r.diagnostics) (hok : r.ok = true) : r'.ok = true := by
  have hnone : r.diagnostics = [] := by simpa [ok] using hok
  rw [ok, List.isEmpty_iff, List.eq_nil_iff_forall_not_mem]
  intro d hd
  obtain ⟨d', hd'⟩ := h d hd
  rw [hnone] at hd'
  cases hd'

theorem ok_analyze (source : List UInt8) (o : Options) (tokens : Bool) :
    (analyze source o).ok = (analyze source ⟨tokens, 0⟩).ok := by
  simp only [Report.ok, diagnostics_analyze_eq_take source o tokens]
  split
  · rename_i hpos
    cases (analyze source ⟨tokens, 0⟩).diagnostics with
    | nil => simp
    | cons d ds =>
      obtain ⟨n, hn⟩ : ∃ n, o.maxDiagnostics.toNat = n + 1 := ⟨o.maxDiagnostics.toNat - 1, by omega⟩
      rw [hn, List.take_succ_cons]
      rfl
  · rfl

end PascalCheck
