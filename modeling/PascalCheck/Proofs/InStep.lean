import PascalCheck.Analysis.Report
import PascalCheck.Proofs.View.Plain
import PascalCheck.Proofs.View.Program

namespace PascalCheck
set_option autoImplicit true

def View.LogMap.replay (r : Run) : View.whole.LogMap (Array Event) Run where
  apply trace := r.replay trace.toList
  add_shown trace e _ := by
    rw [View.plain_whole.event, Log.add_array, Array.toList_push, Run.replay_append]
    rfl
  add_hidden log e h := by
    rw [View.showsEvent_whole] at h
    cases h

theorem Scan.view_whole (scan : Scan) : scan.view .whole = scan := by
  have hopen : View.whole.openQuote scan.openQuote = scan.openQuote :=
    View.plain_whole.openQuote _
  rw [view, View.filter_shows rfl, List.map_id'' View.plain_whole.token, View.plain_whole.token,
    hopen]

theorem Reader.start_eq_view (r : Run) (scan : Scan) :
    start r scan = (ofScan scan).view (.replay r) := by
  rw [ofScan, ← start_view, scan.view_whole]
  rfl

/-- A checker in step with the reading ends with the tree and the events of a reading that only
traces them. -/
theorem Checker.read_eq (c : Checker) (source : List UInt8) :
    c.read source = ((Program.ofScan (Scan.ofBytes source)).1,
      ((Run.ofChecker c).replay (Program.ofScan (Scan.ofBytes source)).2).checker) := by
  simp only [read, Reader.start_eq_view, Reader.program_view, View.plain_whole.program]
  rfl

end PascalCheck
