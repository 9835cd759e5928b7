import PascalCheck.Proofs.Literals
import PascalCheck.Proofs.SymbolTables

namespace PascalCheck
set_option autoImplicit true

namespace Finding

/-- The check finds something if and only if it fails. -/
def Speaks (f : Finding) : Prop := f.causes = [] ↔ f.ok = true

theorem speaks_pass : pass.Speaks := by
  simp [Speaks, pass]

theorem speaks_fail (c : Cause) : (fail c).Speaks := by
  simp [Speaks, fail]

theorem andThen_pass (f : Finding) : f.andThen pass = f := by
  unfold Finding.andThen
  split
  · rename_i hok
    simp [pass, ← hok]
  · rfl

theorem Speaks.andThen {f g : Finding} (hf : f.Speaks) (hg : f.ok = true → g.Speaks) :
    (f.andThen g).Speaks := by
  unfold Finding.andThen
  split
  · rename_i hok
    rw [Speaks, hf.2 hok, List.nil_append]
    exact hg hok
  · exact hf

end Finding

open Finding

theorem ValueType.speaks_check_integer (text : String) : (ValueType.integer.check text).Speaks := by
  simp only [check]
  split
  · exact speaks_fail _
  · exact speaks_fail _
  · split
    · exact speaks_pass
    · exact speaks_fail _

theorem ValueType.speaks_check_real_iff (text : String) :
    (ValueType.real.check text).Speaks ↔ Numeral.classifyReal text ≠ .malformed := by
  simp only [check]
  cases Numeral.classifyReal text with
  | malformed => simp [Speaks, failQuietly]
  | finite => simp [speaks_pass]
  | _ => simp [speaks_fail]

def Literal.IsMalformed (l : Literal) : Prop :=
  l.isReal = true ∧ Numeral.classifyReal l.text = .malformed

instance (l : Literal) : Decidable l.IsMalformed := by
  unfold Literal.IsMalformed
  infer_instance

namespace Literal

theorem check_of_isMalformed {l : Literal} (h : l.IsMalformed) : l.check = .failQuietly := by
  rw [check, type, h.1, if_pos rfl, ValueType.check, h.2]

theorem speaks_check {l : Literal} (h : ¬ l.IsMalformed) : l.check.Speaks := by
  rw [check, type]
  split
  · rename_i hr
    exact (ValueType.speaks_check_real_iff _).2 fun hm => h ⟨hr, hm⟩
  · exact ValueType.speaks_check_integer _

end Literal

namespace SymbolTable

theorem speaks_checkDeclared (t : SymbolTable) (name : String) : (t.checkDeclared name).Speaks := by
  unfold checkDeclared
  split
  · exact speaks_pass
  · exact speaks_fail _

theorem speaks_checkTarget (s : Symbol) : (checkTarget s).Speaks := by
  unfold checkTarget
  split
  · exact speaks_fail _
  · exact speaks_pass

theorem speaks_checkLiteralType (s : Symbol) (l : Literal) : (checkLiteralType s l).Speaks := by
  unfold checkLiteralType
  split
  · exact speaks_fail _
  · exact speaks_pass

theorem speaks_checkSource (d s : Symbol) : (checkSource d s).Speaks := by
  unfold checkSource
  split
  · exact speaks_fail _
  · split
    · exact speaks_fail _
    · exact speaks_pass

theorem speaks_checkAssignName (t : SymbolTable) (target source : String) :
    (t.checkAssignName target source).Speaks := by
  unfold checkAssignName
  split
  · exact (speaks_checkTarget _).andThen fun _ => speaks_checkSource _ _
  · rename_i h
    -- One of the two names is missing, and is reported.
    cases hd : t.lookup? target with
    | none => simp [Speaks]
    | some d =>
      cases hs : t.lookup? source with
      | none => simp [Speaks]
      | some s => exact absurd hs (h d s hd)

theorem check_eq_pass {s : Symbol} {l : Literal} (hl : l.check.ok = true)
    (ht : (checkLiteralType s l).ok = true) : s.type.check l.text = .pass :=
  Literal.check_eq_pass hl (ok_checkLiteralType.1 ht)

/-- The check against the type of the target adds nothing to those before it. -/
theorem checkAssign_of_lookup? {t : SymbolTable} (h : t.lookup? name = some s) :
    t.checkAssign name l = (l.check.andThen (checkTarget s)).andThen (checkLiteralType s l) := by
  rw [checkAssign, h]
  by_cases hok : ((l.check.andThen (checkTarget s)).andThen (checkLiteralType s l)).ok = true
  · have hparts := hok
    simp only [ok_andThen, Bool.and_eq_true] at hparts
    dsimp only
    rw [check_eq_pass hparts.1.1 hparts.2, andThen_pass]
  · exact if_neg hok

theorem ok_checkAssign {t : SymbolTable} :
    (t.checkAssign name l).ok = true ↔
      ∃ s, t.lookup? name = some s ∧ s.isFunction = false ∧ l.check.ok = true ∧
        ¬ (l.isReal = true ∧ s.type = .integer) := by
  cases h : t.lookup? name with
  | none => simp [checkAssign, h]
  | some s =>
    rw [checkAssign_of_lookup? h]
    simp only [ok_andThen, Bool.and_eq_true, ok_checkTarget, ok_checkLiteralType,
      Bool.not_eq_true', Option.some.injEq, exists_eq_left', and_assoc]
    exact and_left_comm

theorem checkAssign_of_isMalformed {t : SymbolTable} (hs : t.contains name = true)
    (hl : l.IsMalformed) : t.checkAssign name l = .failQuietly := by
  obtain ⟨s, hs⟩ := Option.isSome_iff_exists.1 hs
  rw [checkAssign, hs, Literal.check_of_isMalformed hl]
  rfl

theorem speaks_checkAssign {t : SymbolTable} (h : ¬ (t.contains name = true ∧ l.IsMalformed)) :
    (t.checkAssign name l).Speaks := by
  cases hs : t.lookup? name with
  | none => simp [checkAssign, hs, Speaks]
  | some s =>
    have hl : l.check.Speaks := Literal.speaks_check fun hm => h ⟨by rw [contains, hs]; rfl, hm⟩
    rw [checkAssign_of_lookup? hs]
    exact (hl.andThen fun _ => speaks_checkTarget s).andThen fun _ => speaks_checkLiteralType s l

end SymbolTable

/-- An operation of a checker that has a verdict. -/
inductive Operation where
  | declare (s : Symbol)
  | use (name : String) (line : Int)
  | literal (l : Literal) (line : Int)
  | assign (name : String) (l : Literal) (line : Int)
  | assignName (target source : String) (line : Int)

namespace Operation

def line : Operation → Int
  | .declare s => s.line
  | .use _ n | .literal _ n | .assign _ _ n | .assignName _ _ n => n

def declared? : Operation → Option Symbol
  | .declare s => some s
  | _ => none

/-- The operation is about a malformed real literal, and about no name that is not declared. -/
def IsSilent (t : SymbolTable) : Operation → Prop
  | .literal l _ => l.IsMalformed
  | .assign name l _ => t.contains name = true ∧ l.IsMalformed
  | _ => False

end Operation

namespace Checker

def findingOf (c : Checker) : Operation → Finding
  | .declare s => c.declareFinding s
  | .use name _ => c.table.checkDeclared name
  | .literal l _ => l.check
  | .assign name l _ => c.table.checkAssign name l
  | .assignName target source _ => c.table.checkAssignName target source

def accepts (c : Checker) (op : Operation) : Bool := (c.findingOf op).ok

def perform (c : Checker) : Operation → Checker
  | .declare s => c.declare s
  | .use name line => c.use name line
  | .literal l line => c.literal l line
  | .assign name l line => c.assign name l line
  | .assignName target source line => c.assignName target source line

theorem speaks_declareFinding (c : Checker) (s : Symbol) : (c.declareFinding s).Speaks := by
  unfold declareFinding
  split
  · exact speaks_fail _
  · exact speaks_pass

theorem speaks_findingOf {c : Checker} {op : Operation} (h : ¬ op.IsSilent c.table) :
    (c.findingOf op).Speaks := by
  cases op with
  | declare s => exact c.speaks_declareFinding s
  | use name line => exact c.table.speaks_checkDeclared name
  | literal l line => exact Literal.speaks_check h
  | assign name l line => exact SymbolTable.speaks_checkAssign h
  | assignName target source line => exact c.table.speaks_checkAssignName target source

theorem findingOf_of_isSilent {c : Checker} {op : Operation} (h : op.IsSilent c.table) :
    c.findingOf op = .failQuietly := by
  cases op with
  | literal l line => exact Literal.check_of_isMalformed h
  | assign name l line => exact SymbolTable.checkAssign_of_isMalformed h.1 h.2
  | _ => exact h.elim

/-- An operation adds what it finds to the record. -/
theorem sink_perform (c : Checker) (op : Operation) :
    (c.perform op).sink = c.sink.addAll ((c.findingOf op).diagnostics op.line) := by
  cases op <;> simp only [perform, declare, use, literal, assign, assignName, record_eq] <;> rfl

theorem symbols_perform (c : Checker) (op : Operation) :
    (c.perform op).table.symbols =
      if c.accepts op then c.table.symbols ++ op.declared?.toList else c.table.symbols := by
  cases op with
  | declare s =>
    have htable : (c.perform (.declare s)).table = c.table.insert s := by
      rw [perform, declare, record_eq]
    rw [htable]
    cases h : c.table.contains s.name with
    | true =>
      rw [SymbolTable.insert_of_contains h]
      simp [accepts, findingOf, declareFinding, h, Finding.fail]
    | false =>
      rw [SymbolTable.symbols_insert_of_not_contains h]
      simp [accepts, findingOf, declareFinding, h, Finding.pass, Operation.declared?]
  | use name line => simp [perform, use, record_eq, Operation.declared?]
  | literal l line => simp [perform, literal, record_eq, Operation.declared?]
  | assign name l line => simp [perform, assign, record_eq, Operation.declared?]
  | assignName target source line => simp [perform, assignName, record_eq, Operation.declared?]

theorem sink_perform_of_causes {c : Checker} {op : Operation} (h : (c.findingOf op).causes = []) :
    (c.perform op).sink = c.sink := by
  rw [sink_perform, Finding.diagnostics, h]
  rfl

theorem exists_mem_sink_perform {c : Checker} {op : Operation} (h : (c.findingOf op).causes ≠ [])
    (hc : c.sink.limit ≤ 0) : ∃ d ∈ (c.perform op).sink.list, d.line = op.line := by
  obtain ⟨cause, hcause⟩ := List.exists_mem_of_ne_nil _ h
  refine ⟨cause.onLine op.line, ?_, rfl⟩
  rw [sink_perform, Sink.mem_addAll hc]
  exact .inr (List.mem_map_of_mem hcause)

/-- In every state of a checker, an assignment of a literal is accepted if and only if the name is
a declared variable, the literal is in range for its own type and no real literal is assigned to an
integer; the last check changes neither the verdict nor what is reported. Any operation that is
accepted records nothing and, if it is a declaration, adds its symbol at the end of the table; one
that is refused leaves the table as it was and a diagnostic on its line in a record without a limit,
unless it is silent and leaves the record as it was. -/
theorem verdicts_match_record (c : Checker) :
    (∀ name l line, c.accepts (.assign name l line) = true ↔
      ∃ s, c.table.lookup? name = some s ∧ s.isFunction = false ∧
        c.accepts (.literal l line) = true ∧ ¬ (l.isReal = true ∧ s.type = .integer)) ∧
    (∀ name l s, c.table.lookup? name = some s →
      c.table.checkAssign name l =
        (l.check.andThen (SymbolTable.checkTarget s)).andThen
          (SymbolTable.checkLiteralType s l)) ∧
    ∀ op,
      (c.perform op).table.symbols =
        (if c.accepts op then c.table.symbols ++ op.declared?.toList else c.table.symbols) ∧
      (c.accepts op = true → (c.perform op).sink = c.sink) ∧
      (op.IsSilent c.table → c.accepts op = false ∧ (c.perform op).sink = c.sink) ∧
      (c.accepts op = false → ¬ op.IsSilent c.table → c.sink.limit ≤ 0 →
        ∃ d ∈ (c.perform op).sink.list, d.line = op.line) := by
  refine ⟨fun _ _ _ => SymbolTable.ok_checkAssign,
    fun _ _ _ h => SymbolTable.checkAssign_of_lookup? h, fun op =>
      ⟨c.symbols_perform op, ?accepted, ?silent, ?refused⟩⟩
  case accepted =>
    intro hok
    have hspeaks : ¬ op.IsSilent c.table := by
      intro hsilent
      rw [accepts, findingOf_of_isSilent hsilent] at hok
      cases hok
    exact sink_perform_of_causes ((speaks_findingOf hspeaks).2 hok)
  case silent =>
    intro hsilent
    have hfinding := findingOf_of_isSilent hsilent
    exact ⟨by rw [accepts, hfinding]; rfl, sink_perform_of_causes (by rw [hfinding]; rfl)⟩
  case refused =>
    intro hno hspeaks hlimit
    refine exists_mem_sink_perform (fun hcauses => ?_) hlimit
    have hok : c.accepts op = true := (speaks_findingOf hspeaks).1 hcauses
    rw [hok] at hno
    cases hno

/-- A checker that knows an integer `i` and a real `x`. -/
def twoVariables : Checker :=
  ((ofSink .empty).declare ⟨"i", .integer, false, 1, []⟩).declare ⟨"x", .real, false, 2, []⟩

theorem verdicts_match_record_twoVariables :
    (twoVariables.perform (.assign "X" ⟨"-7", false⟩ 3)).sink = twoVariables.sink ∧
      (twoVariables.perform (.assign "x" ⟨"1e", true⟩ 4)).sink = twoVariables.sink ∧
      (∃ d ∈ (twoVariables.perform (.assign "i" ⟨"1.5", true⟩ 5)).sink.list, d.line = 5) ∧
      twoVariables.table.checkAssign "x" ⟨"99999", false⟩ =
        .fail (.integerRange "99999") := by
  obtain ⟨-, hlast, hop⟩ := verdicts_match_record twoVariables
  obtain ⟨-, haccepted, -⟩ := hop (.assign "X" ⟨"-7", false⟩ 3)
  obtain ⟨-, -, hsilent, -⟩ := hop (.assign "x" ⟨"1e", true⟩ 4)
  obtain ⟨-, -, -, hrefused⟩ := hop (.assign "i" ⟨"1.5", true⟩ 5)
  have hlookup : twoVariables.table.lookup? "x" = some ⟨"x", .real, false, 2, []⟩ := by
    decide +kernel
  have hreal : Numeral.classifyReal "1.5" ≠ .malformed := by decide +kernel
  refine ⟨haccepted (by decide +kernel), (hsilent ⟨?_, ?_⟩).2,
    hrefused (by decide +kernel) (fun h => hreal h.2.2) (by decide +kernel), ?_⟩
  · decide +kernel
  · decide +kernel
  · rw [hlast "x" ⟨"99999", false⟩ _ hlookup]
    decide +kernel

end Checker

end PascalCheck
