import Mathlib.Data.List.Basic
import PascalCheck.Proofs.DeclaredNames
import PascalCheck.Proofs.Silence
import PascalCheck.Proofs.View.Checks

namespace PascalCheck
set_option autoImplicit true

def SymbolTable.finding (t : SymbolTable) : Event → Finding
  | .use name _ => t.checkDeclared name
  | .assign name l _ => t.checkAssign name l
  | .assignName target source _ => t.checkAssignName target source
  | _ => .pass

theorem SymbolTable.finding_view (v : View) (t : SymbolTable) (e : Event) :
    (t.view v).finding (e.view v) = (t.finding e).view v := by
  cases e with
  | use name line => exact t.checkDeclared_view v name
  | assign name l line => exact t.checkAssign_view v name l
  | assignName target source line => exact t.checkAssignName_view v target source
  | _ => rfl

theorem Run.reports_eq_nil_iff {r : Run} (he : e.isNameCheck = true) :
    r.reports e = [] ↔ (r.checker.table.finding e).causes = [] := by
  cases e with
  | use name line => exact List.map_eq_nil_iff
  | assign name l line => exact List.map_eq_nil_iff
  | assignName target source line => exact List.map_eq_nil_iff
  | _ => cases he

theorem causes_finding_of_ok (h : (analyze source o).ok = true) (he : e ∈ trace source)
    (hname : e.isNameCheck = true) :
    (SymbolTable.finding (.ofList (analyze source o).symbols) e).causes = [] := by
  obtain ⟨before, after, htrace⟩ := List.append_of_mem he
  have hreports := (Run.reports_eq_nil_iff hname).1 (reports_of_ok h htrace)
  rwa [table_of_isNameCheck htrace hname o] at hreports

def Distinct (ss : List Symbol) : Prop :=
  ∀ before s after, ss = before ++ s :: after → ∀ x ∈ before, x.key ≠ s.key

theorem Distinct.of_keys (h : Distinct ss) (hkeys : ss'.map Symbol.key = ss.map Symbol.key) :
    Distinct ss' := by
  intro before s after hsplit x hx hkey
  rw [hsplit, List.map_append, List.map_cons] at hkeys
  obtain ⟨front, rest, rfl, hfront, hrest⟩ := List.map_eq_append_iff.1 hkeys.symm
  obtain ⟨s', back, rfl, hs', -⟩ := List.map_eq_cons_iff.1 hrest
  have hmem : x.key ∈ front.map Symbol.key := by
    rw [hfront]
    exact List.mem_map_of_mem hx
  obtain ⟨y, hy, hyx⟩ := List.mem_map.1 hmem
  exact h front s' back rfl y hy (by rw [hyx, hkey, hs'])

theorem distinct_of_ok (h : (analyze source o).ok = true) :
    Distinct ((trace source).filterMap Event.symbol?) := by
  intro before s after hsplit x hx hkey
  have hmem := mem_attempts_duplicate_iff.2 ⟨before, s, after, hsplit, ⟨x, hx, hkey⟩, rfl⟩
  rw [attempts_trace_of_ok h] at hmem
  exact absurd hmem.1 List.not_mem_nil

theorem Run.reports_declare_of_distinct (h : Distinct ((trace source).filterMap Event.symbol?))
    (htrace : trace source = before ++ .declare s :: after) :
    (fresh.replay before).reports (.declare s) = [] := by
  rw [List.eq_nil_iff_forall_not_mem]
  intro d hd
  have hcode : d.code = 113 := by
    rw [reports_declare] at hd
    split at hd
    · rw [List.mem_singleton.1 hd]
      rfl
    · cases hd
  have hmem : d ∈ fresh.attempts (trace source) := by
    rw [htrace]
    exact mem_attempts_of_mem_reports hd
  obtain ⟨front, s', back, hsplit, ⟨x, hx, hkey⟩, -⟩ := mem_attempts_duplicate_iff.1 ⟨hmem, hcode⟩
  exact h front s' back hsplit x hx hkey

theorem Run.brackets_replay_takings {r r' : Run}
    (h : ∀ before after, es = before ++ .balance :: after → (r.replay before).reports .balance = [])
    (hb : r.brackets = r'.brackets) :
    (r.replay es).brackets = (r'.replay (es.filter Event.isTaking)).brackets := by
  induction es generalizing r r' with
  | nil => exact hb
  | cons e es ih =>
    have hrest : ∀ before after, es = before ++ .balance :: after →
        ((r.step e).replay before).reports .balance = [] := by
      intro before after hes
      exact h (e :: before) after (by rw [hes]; rfl)
    cases he : e.isTaking with
    | true =>
      rw [List.filter_cons_of_pos he]
      exact ih hrest (brackets_step_of_isTaking he hb)
    | false =>
      have hkeep : (r.step e).brackets = r.brackets := by
        cases e with
        | balance => exact brackets_step_of_silent rfl (h [] es rfl)
        | scanned t => cases he
        | ended q => cases he
        | _ => rw [step_eq]; rfl
      rw [List.filter_cons_of_neg (by simp [he])]
      exact ih hrest (hkeep.trans hb)

theorem Run.brackets_replay_of_not_mem (h : Event.balance ∉ es) :
    (fresh.replay es).brackets = (fresh.replay (es.filter Event.isTaking)).brackets := by
  apply brackets_replay_takings _ rfl
  intro before after hes
  exact absurd (by simp [hes]) h

/-- If the tokens up to the end leave no bracket open, none is open where they have to be
closed. -/
theorem Run.reports_balance (h : Event.balance ∉ front)
    (htakings : front.filter Event.isTaking = ts.map .scanned)
    (htokens : fresh.attempts (readEvents false ts ++ [.ended q]) = []) :
    (fresh.replay front).reports .balance = [] := by
  have hread : .balance ∉ readEvents false ts := by
    intro hb
    rcases isScan_of_mem_readEvents hb with ⟨t, ht⟩ | ⟨l, n, hl⟩
    · cases ht
    · cases hl
  have hsame : (fresh.replay front).brackets = (fresh.replay (readEvents false ts)).brackets := by
    rw [brackets_replay_of_not_mem h, brackets_replay_of_not_mem hread, htakings,
      takings_readEvents]
  have hend : (fresh.replay (readEvents false ts)).reports (.ended q) = [] :=
    reports_of_attempts_eq_nil htokens
  simp only [reports, unclosedReports, hsame]
  exact (List.append_eq_nil_iff.1 hend).2

theorem ok_of_attempts_eq_nil (h : Run.fresh.attempts (trace source) = []) :
    (analyze source o).ok = true := by
  rw [ok_analyze source o false, Report.ok, List.isEmpty_iff, List.eq_nil_iff_forall_not_mem]
  intro d hd
  have hmem := (mem_diagnostics_analyze (Int.le_refl 0)).1 hd
  rw [h] at hmem
  cases hmem

section Parts

variable {source : List UInt8}
  (hcloses : ∀ before after, trace source = before ++ .balance :: after →
    after = [.ended (Scan.ofBytes source).openQuote])
  (htokens : Run.fresh.attempts (readEvents false (Scan.ofBytes source).tokens ++
    [.ended (Scan.ofBytes source).openQuote]) = [])

include hcloses htokens

theorem reports_balance_of_parts (htrace : trace source = before ++ .balance :: after) :
    (Run.fresh.replay before).reports .balance = [] := by
  obtain rfl := hcloses before after htrace
  have htakings := takings_trace source
  rw [htrace, List.filter_append] at htakings
  have htaken := (List.append_inj' htakings rfl).1
  have hfirst : .balance ∉ before := by
    intro hmem
    obtain ⟨early, late, rfl⟩ := List.append_of_mem hmem
    have hlate := hcloses early _ (by rw [htrace, List.append_assoc, List.cons_append])
    have hlength := congrArg List.length hlate
    simp only [List.length_append, List.length_cons, List.length_nil] at hlength
    omega
  exact Run.reports_balance hfirst htaken htokens

theorem exists_fault_of_parts (o : Options)
    (hdistinct : Distinct ((trace source).filterMap Event.symbol?))
    (hnames : ∀ e ∈ trace source, e.isNameCheck = true →
      (SymbolTable.finding (.ofList (analyze source o).symbols) e).causes = [])
    (hd : d ∈ Run.fresh.attempts (trace source)) :
    ∃ (c : Cause) (n : Nat), .fault c n ∈ trace source ∧ d = c.onLine n := by
  obtain ⟨before, e, after, hsplit, hd⟩ := Run.exists_of_mem_attempts hd
  have hmem : e ∈ trace source := by simp [hsplit]
  -- Each kind of event is silent for a reason of its own.
  have hsilent (h : (Run.fresh.replay before).reports e = []) : False := by
    rw [h] at hd
    cases hd
  have htaking (he : e.isTaking = true) : (Run.fresh.replay before).reports e = [] := by
    have hsame : (Run.fresh.replay before).brackets =
        (Run.fresh.replay (before.filter Event.isTaking)).brackets := by
      apply Run.brackets_replay_takings _ rfl
      intro early late hbefore
      have htrace : trace source = early ++ .balance :: (late ++ e :: after) := by
        rw [hsplit, hbefore, List.append_assoc, List.cons_append]
      exact reports_balance_of_parts hcloses htokens htrace
    have htakings := takings_trace source
    rw [hsplit, List.filter_append, List.filter_cons_of_pos he] at htakings
    have htaken := Run.attempts_takings_of_eq_nil htokens
    rw [List.filter_append, takings_readEvents] at htaken
    have hlist : Run.fresh.attempts (before.filter Event.isTaking ++
        e :: after.filter Event.isTaking) = [] := by
      rw [htakings]
      exact htaken
    rw [Run.reports_of_isTaking he hsame]
    exact Run.reports_of_attempts_eq_nil hlist
  cases e with
  | scanned t => exact (hsilent (htaking rfl)).elim
  | ended q => exact (hsilent (htaking rfl)).elim
  | balance => exact (hsilent (reports_balance_of_parts hcloses htokens hsplit)).elim
  | literal l n =>
    have hread := List.mem_append_left [.ended (Scan.ofBytes source).openQuote]
      (mem_readEvents_of_literal hmem)
    obtain ⟨early, late, hlist⟩ := List.append_of_mem hread
    rw [hlist] at htokens
    -- What a literal reports is the same in every run.
    have hliteral : (Run.fresh.replay early).reports (.literal l n) = [] :=
      Run.reports_of_attempts_eq_nil htokens
    exact (hsilent hliteral).elim
  | fault c n => exact ⟨c, n, hmem, List.mem_singleton.1 hd⟩
  | declare s => exact (hsilent (Run.reports_declare_of_distinct hdistinct hsplit)).elim
  | _ =>
    refine (hsilent ?_).elim
    rw [Run.reports_eq_nil_iff rfl, table_of_isNameCheck hsplit rfl o]
    exact hnames _ hmem rfl

end Parts

/-- A source is accepted if its parts are in order. -/
theorem ok_of_parts {source : List UInt8} (o : Options)
    (htrace : trace source = front ++ [.balance, .ended q]) (hfront : .balance ∉ front)
    (htokens : Run.fresh.attempts
      (readEvents false (Scan.ofBytes source).tokens ++ [.ended q]) = [])
    (hclean : (readerAtEnd source).Clean)
    (hdistinct : Distinct ((trace source).filterMap Event.symbol?))
    (hnames : ∀ e ∈ trace source, e.isNameCheck = true →
      (SymbolTable.finding (.ofList (analyze source o).symbols) e).causes = []) :
    (analyze source o).ok = true := by
  have hend := takings_trace source
  rw [htrace, List.filter_append] at hend
  obtain ⟨-, hq⟩ := List.append_inj' hend rfl
  obtain rfl : q = (Scan.ofBytes source).openQuote :=
    Event.ended.inj (List.singleton_inj.1 hq)
  have hcloses : ∀ before after, trace source = before ++ .balance :: after →
      after = [.ended (Scan.ofBytes source).openQuote] := by
    intro before after hsplit
    have hlast : Event.balance ∉ [.ended (Scan.ofBytes source).openQuote] := by simp
    rw [htrace] at hsplit
    exact ((List.append_cons_inj_of_notMem hfront hlast).1 hsplit).2.2.symm
  apply ok_of_attempts_eq_nil
  rw [List.eq_nil_iff_forall_not_mem]
  intro d hd
  obtain ⟨c, n, hmem, -⟩ := exists_fault_of_parts hcloses htokens o hdistinct hnames hd
  rw [← story_readerAtEnd] at hmem
  exact hclean c n hmem

end PascalCheck
