import PascalCheck.Proofs.Checks
import PascalCheck.Proofs.Reader.Statements
import PascalCheck.Proofs.Report

namespace PascalCheck
set_option autoImplicit true

def Diagnostic.StartsWith (d : Diagnostic) (text : String) : Prop :=
  text.toList <+: d.message.toList

instance (d : Diagnostic) (text : String) : Decidable (d.StartsWith text) :=
  inferInstanceAs (Decidable (text.toList <+: d.message.toList))

/-- The diagnostic is a violation of the grammar. -/
def Diagnostic.IsSyntax (d : Diagnostic) : Prop :=
  d.code ∈ [100, 101, 107, 108, 109] ∨ d.code = 104 ∧ ¬ d.StartsWith "expected variable, got"

instance (d : Diagnostic) : Decidable d.IsSyntax :=
  inferInstanceAs (Decidable (_ ∨ _ ∧ ¬ _))

namespace Cause

theorem startsWith_notAVariable (name : String) (line : Int) :
    ((notAVariable name).onLine line).StartsWith "expected variable, got" := by
  refine ⟨(" function '" ++ name ++ "'").toList, ?_⟩
  simp [onLine, Diagnostic.ofCode, Message.format, Message.template?, Message.fill, code, operands,
    Message.Operand.placed, Message.surplus]

theorem not_startsWith_unexpected (wanted : Wanted) (got : String) (line : Int) :
    ¬ ((unexpected wanted got).onLine line).StartsWith "expected variable, got" := by
  cases wanted <;>
    simp [Diagnostic.StartsWith, onLine, Diagnostic.ofCode, Message.format, Message.template?,
      Message.fill, code, operands, Message.Operand.placed, Wanted.text]

/-- Code and message tell violations of the grammar from other causes. -/
theorem isSyntax_onLine_iff {c : Cause} {line : Int} :
    (c.onLine line).IsSyntax ↔ c.isGrammatical = true := by
  cases c with
  | unexpected wanted got =>
    simp only [isGrammatical, iff_true]
    exact .inr ⟨rfl, not_startsWith_unexpected wanted got line⟩
  | notAVariable name =>
    simp only [isGrammatical, Bool.false_eq_true, iff_false]
    rintro (hcode | ⟨-, hstart⟩)
    · simp [onLine, Diagnostic.ofCode, code] at hcode
    · exact hstart (startsWith_notAVariable name line)
  | _ => simp [isGrammatical, Diagnostic.IsSyntax, onLine, Diagnostic.ofCode, code]

end Cause

def Event.mayReport : Event → Cause → Bool
  | .scanned _, .bracket _ | .scanned _, .invalidCharacter _ | .scanned _, .invalidLiteral _ => true
  | .ended _, .bracket _ | .ended _, .unterminatedString => true
  | .balance, .bracket _ => true
  | .literal _ _, c => c.isOfLiteral
  | .fault c' _, c => c' = c
  | .declare _, .duplicate _ => true
  | .use _ _, c => c.isOfNames
  | .assign _ _ _, c => c.isOfLiteral || c.isOfNames
  | .assignName _ _ _, c => c.isOfNames
  | _, _ => false

/-- What an event reports is of its kind. -/
theorem Run.exists_of_mem_reports {r : Run} (h : d ∈ r.reports e) :
    ∃ c n, e.mayReport c = true ∧ c.onLine n = d := by
  have hunclosed (he : ∀ f, e.mayReport (.bracket f) = true) (h : d ∈ r.unclosedReports) :
      ∃ c n, e.mayReport c = true ∧ c.onLine n = d := by
    obtain ⟨f, -, rfl⟩ := List.mem_map.1 h
    exact ⟨_, _, he f.2, rfl⟩
  cases e with
  | scanned t =>
    rcases List.mem_append.1 h with h | h
    · obtain ⟨f, -, rfl⟩ := List.mem_map.1 h
      exact ⟨_, _, rfl, rfl⟩
    · obtain ⟨c, hc, rfl⟩ := Token.mem_reports.1 h
      rcases Token.of_cause?_eq_some hc with ⟨-, rfl⟩ | ⟨-, rfl⟩
      · exact ⟨_, _, rfl, rfl⟩
      · exact ⟨_, _, rfl, rfl⟩
  | ended openQuote =>
    rcases List.mem_append.1 h with h | h
    · obtain ⟨n, -, rfl⟩ := List.mem_map.1 h
      exact ⟨_, _, rfl, rfl⟩
    · exact hunclosed (fun _ => rfl) h
  | balance => exact hunclosed (fun _ => rfl) h
  | literal l line =>
    obtain ⟨c, hc, rfl⟩ := Finding.mem_diagnostics.1 h
    exact ⟨c, _, ValueType.isOfLiteral_of_mem_check hc, rfl⟩
  | fault c line =>
    obtain rfl := List.mem_singleton.1 h
    exact ⟨c, _, by simp [Event.mayReport], rfl⟩
  | declare s =>
    obtain ⟨c, hc, rfl⟩ := Finding.mem_diagnostics.1 h
    obtain rfl := Checker.mem_causes_declareFinding hc
    exact ⟨_, _, rfl, rfl⟩
  | use name line =>
    obtain ⟨c, hc, rfl⟩ := Finding.mem_diagnostics.1 h
    obtain ⟨-, rfl⟩ := SymbolTable.mem_causes_checkDeclared.1 hc
    exact ⟨_, _, rfl, rfl⟩
  | assign name l line =>
    obtain ⟨c, hc, rfl⟩ := Finding.mem_diagnostics.1 h
    exact ⟨c, _, by simpa [Event.mayReport] using SymbolTable.isOf_of_mem_checkAssign hc, rfl⟩
  | assignName target source line =>
    obtain ⟨c, hc, rfl⟩ := Finding.mem_diagnostics.1 h
    exact ⟨c, _, SymbolTable.isOfNames_of_mem_checkAssignName hc, rfl⟩

theorem Event.eq_fault_of_mayReport (h : mayReport e c = true) (hc : c.isGrammatical = true) :
    ∃ n, e = .fault c n := by
  cases e with
  | fault c' n =>
    obtain rfl : c' = c := by simpa [mayReport] using h
    exact ⟨n, rfl⟩
  | _ => cases c <;> simp_all [mayReport, Cause.isGrammatical, Cause.isOfLiteral, Cause.isOfNames]

theorem Run.not_isSyntax_of_mem_reports {r : Run} (h : d ∈ r.reports e)
    (he : ∀ c n, e ≠ .fault c n) : ¬ d.IsSyntax := by
  obtain ⟨c, n, hc, rfl⟩ := exists_of_mem_reports h
  rw [Cause.isSyntax_onLine_iff]
  intro hg
  obtain ⟨n, hn⟩ := Event.eq_fault_of_mayReport hc hg
  exact he c n hn

theorem Reader.Reads.grammatical {s s' : Reader} (h : Reads P s s')
    (hP : ∀ s c n, P s (.fault c n) → c.isGrammatical = true)
    (hs : ∀ c n, .fault c n ∈ s.story → c.isGrammatical = true) :
    ∀ c n, .fault c n ∈ s'.story → c.isGrammatical = true := by
  refine h.invariant
    (I := fun u => ∀ c n, .fault c n ∈ u.story → c.isGrammatical = true) hs ?_ ?_
  · intro u t ht hu
    rwa [story_advance ht]
  · intro u e he hu c n hc
    rcases mem_story_emit.1 hc with rfl | hc
    · exact hP u c n he
    · exact hu c n hc

theorem Reader.Complaint.grammatical (h : Complaint s (.fault c n)) : c.isGrammatical = true := by
  cases h with
  | here hc => exact hc
  | last hc => exact hc

def readerAtEnd (source : List UInt8) : Reader := (Reader.ofScan (Scan.ofBytes source)).program.2

theorem story_readerAtEnd (source : List UInt8) :
    (readerAtEnd source).story = trace source :=
  Reader.story_program _

theorem isGrammatical_of_fault (h : .fault c n ∈ trace source) : c.isGrammatical = true := by
  rw [← story_readerAtEnd] at h
  have hstart := Reader.clean_ofScan (Scan.ofBytes source)
  have hdeclared := (Reader.reads_declared (Reader.ofScan (Scan.ofBytes source))).grammatical
    (fun s c n hc => ?_) fun c n hc => absurd hc (hstart c n)
  · refine (Reader.reads_body (Reader.sound_ofScan source)).grammatical ?_ hdeclared c n h
    intro s c n hc
    cases hc with
    | complaint hc => exact hc.grammatical
  · cases hc with
    | complaint hc => exact hc.grammatical

/-- A report has no violations of the grammar exactly if its source was read without any. -/
theorem no_syntax_iff_clean {o : Options} (h : o.maxDiagnostics ≤ 0) :
    (∀ d ∈ (analyze source o).diagnostics, ¬ d.IsSyntax) ↔ (readerAtEnd source).Clean := by
  rw [Reader.Clean, story_readerAtEnd]
  constructor
  · intro hd c n hc
    obtain ⟨before, after, htrace⟩ := List.append_of_mem hc
    have hmem : c.onLine n ∈ Run.fresh.attempts (trace source) := by
      rw [htrace]
      exact Run.mem_attempts_of_mem_reports (List.mem_singleton_self _)
    exact hd _ ((mem_diagnostics_analyze h).2 hmem)
      (Cause.isSyntax_onLine_iff.2 (isGrammatical_of_fault hc))
  · intro hclean d hd
    obtain ⟨before, e, after, htrace, hr⟩ :=
      Run.exists_of_mem_attempts ((mem_diagnostics_analyze h).1 hd)
    refine Run.not_isSyntax_of_mem_reports hr ?_
    rintro c n rfl
    exact hclean c n (by simp [htrace])

end PascalCheck
