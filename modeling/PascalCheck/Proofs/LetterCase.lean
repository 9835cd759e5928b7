import PascalCheck.Proofs.LowerCase
import PascalCheck.Proofs.Streams
import PascalCheck.Proofs.View.Checks

namespace PascalCheck
set_option autoImplicit true

theorem View.text_caseless (s : String) : View.caseless.text s = s.toLower := by
  apply String.toList_injective
  rw [View.toList_text]
  exact String.toList_map.symm

/-- Tokens that differ at most in the case of their letters. -/
structure Token.SameButCase (t t' : Token) : Prop where
  kind : t.kind = t'.kind
  code : t.code = t'.code
  place : t.place = t'.place
  lexeme : t.lexeme.toLower = t'.lexeme.toLower

theorem Token.sameButCase_of_view (h : Token.view .caseless t = Token.view .caseless t') :
    t.SameButCase t' := by
  obtain ⟨hkind, hlexeme, hcode, hplace⟩ := Token.mk.inj h
  rw [View.text_caseless, View.text_caseless] at hlexeme
  exact ⟨hkind, hcode, hplace, hlexeme⟩

section Same

variable {a b : List UInt8} {o o' : Options}

theorem Scan.view_caseless_eq (h : a.map lowerByte = b.map lowerByte) :
    (Scan.ofBytes a).view .caseless = (Scan.ofBytes b).view .caseless := by
  rw [← Scan.ofBytes_lower, ← Scan.ofBytes_lower, h]

theorem tokenAt_sameButCase (h : a.map lowerByte = b.map lowerByte) (sink : Sink) (n : Nat) :
    ((Stream.ofBytes a sink).tokenAt n).SameButCase ((Stream.ofBytes b sink).tokenAt n) := by
  obtain ⟨htokens, hfinal, -⟩ := Scan.mk.inj (Scan.view_caseless_eq h)
  rw [View.filter_shows rfl, View.filter_shows rfl] at htokens
  exact Token.sameButCase_of_view (Stream.apply_tokenAt_eq htokens hfinal sink sink n)

theorem exists_same_but_case (h : a.map lowerByte = b.map lowerByte)
    (ho : o.maxDiagnostics ≤ 0) (ho' : o'.maxDiagnostics ≤ 0)
    (hd : d ∈ (analyze a o).diagnostics) :
    ∃ d' ∈ (analyze b o').diagnostics,
      d'.code = d.code ∧ d'.line = d.line ∧ d'.message.toLower = d.message.toLower := by
  obtain ⟨d', hd', hlook⟩ := View.exists_mem_diagnostics (Scan.view_caseless_eq h) ho ho' hd rfl
  have hview (d : Diagnostic) : d.view .caseless = ⟨d.code, d.line, d.message.toLower⟩ := by
    simp [Diagnostic.view, View.line, View.caseless, ← View.text_caseless]
  rw [hview, hview] at hlook
  obtain ⟨hcode, hline, hmessage⟩ := Diagnostic.mk.inj hlook
  exact ⟨d', hd', hcode, hline, hmessage⟩

theorem ok_of_same_but_case (h : a.map lowerByte = b.map lowerByte)
    (ho : o.maxDiagnostics ≤ 0) (ho' : o'.maxDiagnostics ≤ 0) (hok : (analyze a o).ok = true) :
    (analyze b o').ok = true := by
  refine Report.ok_of_forall (fun d hd => ?_) hok
  obtain ⟨d', hd', -⟩ := exists_same_but_case h.symm ho' ho hd
  exact ⟨d', hd'⟩

end Same

/-- Sources that are equal up to the case of letters give streams of tokens that differ in case
only, trees and symbols that look the same without the case of letters, and the same diagnostics up
to the case of their messages. So both or neither have problems. -/
theorem analysis_independent_of_case (a b : List UInt8) (o o' : Options)
    (ho : o.maxDiagnostics ≤ 0) (ho' : o'.maxDiagnostics ≤ 0)
    (h : a.map lowerByte = b.map lowerByte) :
    (∀ (sink : Sink) (n : Nat), ((Stream.ofBytes a sink).tokenAt n).SameButCase
        ((Stream.ofBytes b sink).tokenAt n)) ∧
      (analyze a o).program.view .caseless = (analyze b o').program.view .caseless ∧
      (analyze a o).symbols.map (Symbol.view .caseless) =
        (analyze b o').symbols.map (Symbol.view .caseless) ∧
      (∀ (code line : Int) (text : String),
        (∃ d ∈ (analyze a o).diagnostics,
            d.code = code ∧ d.line = line ∧ d.message.toLower = text) ↔
          ∃ d ∈ (analyze b o').diagnostics,
            d.code = code ∧ d.line = line ∧ d.message.toLower = text) ∧
      (analyze a o).ok = (analyze b o').ok := by
  refine ⟨tokenAt_sameButCase h, View.program_eq (Scan.view_caseless_eq h),
    View.symbols_eq (Scan.view_caseless_eq h), ?_, ?_⟩
  · intro code line text
    constructor
    · rintro ⟨d, hd, rfl, rfl, rfl⟩
      exact exists_same_but_case h ho ho' hd
    · rintro ⟨d, hd, rfl, rfl, rfl⟩
      exact exists_same_but_case h.symm ho' ho hd
  · rw [Bool.eq_iff_iff]
    exact ⟨ok_of_same_but_case h ho ho', ok_of_same_but_case h.symm ho' ho⟩

/-- A source with a real literal out of range. -/
def smallLetters : List UInt8 := "begin writeln(1e999) end.".toUTF8.toList

def mixedLetters : List UInt8 := "BEGIN WriteLn(1E999) End.".toUTF8.toList

theorem analysis_independent_of_case_mixedLetters :
    smallLetters.map lowerByte = mixedLetters.map lowerByte ∧
      (analyze smallLetters ⟨false, 0⟩).ok = (analyze mixedLetters ⟨false, 0⟩).ok := by
  have h : smallLetters.map lowerByte = mixedLetters.map lowerByte := by decide +kernel
  exact ⟨h, (analysis_independent_of_case smallLetters mixedLetters ⟨false, 0⟩ ⟨false, 0⟩
    (Int.le_refl 0) (Int.le_refl 0) h).2.2.2.2⟩

end PascalCheck
