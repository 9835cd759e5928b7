import PascalCheck.Proofs.Acceptance
import PascalCheck.Proofs.Names

namespace PascalCheck
set_option autoImplicit true

def Token.opensValue (t : Token) : Bool :=
  t.is Code.leftParen || t.is Code.plus || t.is Code.minus

/-- A name is assigned a value: behind the sign of the assignment come opening tokens only. -/
structure Assigns (tokens : List Token) (target value : Token) : Prop where
  name : target.kind = .ident
  split : ∃ front sign opening back,
    tokens = front ++ target :: sign :: (opening ++ value :: back) ∧
      sign.is Code.assign = true ∧ ∀ t ∈ opening, t.opensValue = true

theorem Assigns.target_mem (h : Assigns tokens target value) : target ∈ tokens := by
  obtain ⟨front, sign, opening, back, rfl, -⟩ := h.split
  simp

theorem Assigns.value_mem (h : Assigns tokens target value) : value ∈ tokens := by
  obtain ⟨front, sign, opening, back, rfl, -⟩ := h.split
  simp

/-- The value of an expression is a number or a name. -/
inductive Expr.HasValue (e : Expr) (value : Token) : Prop
  | number : value.kind = .number → e.unparen = .number value text isReal → HasValue e value
  | name : value.kind = .ident → e.unparen = .ident ⟨value, value.lexeme⟩ → HasValue e value

/-- A check of names is made of names among the tokens. The check of an assignment is given the line
of a number, or else the line of the target. -/
inductive Event.Placed (tokens : List Token) : Event → Prop
  | other : e.isNameCheck = false → Placed tokens e
  | use : t ∈ tokens → t.kind = .ident → Placed tokens (.use t.lexeme t.line)
  | assign : Assigns tokens target value → value.kind = .number →
      Placed tokens (.assign target.lexeme l value.line)
  | assignName : Assigns tokens target value → value.kind = .ident →
      Placed tokens (.assignName target.lexeme value.lexeme target.line)

namespace Reader

/-- An expression that is read has its value among the tokens, behind opening tokens. -/
theorem YieldsExpr.exists_value (h : YieldsExpr s e s') :
    ∃ opening value back, s.tokens = opening ++ value :: back ∧
      (∀ t ∈ opening, t.opensValue = true) ∧ e.HasValue value := by
  induction h with
  | @signed s sign u hs hsign hu hk =>
    have hopens : sign.opensValue = true := by
      rcases hsign with hsign | hsign <;> simp [Token.opensValue, hsign]
    refine ⟨[sign], u, _, by rw [tokens_of_here? hs, tokens_of_here? hu]; rfl, ?_, .number hk rfl⟩
    simpa using hopens
  | number hs hk => exact ⟨[], _, _, tokens_of_here? hs, by simp, .number hk rfl⟩
  | name hs hk => exact ⟨[], _, _, tokens_of_here? hs, by simp, .name hk rfl⟩
  | @paren s s' l inner hs hl hinner hr ih =>
    obtain ⟨opening, value, back, htokens, hopening, hvalue⟩ := ih
    have hopens : l.opensValue = true := by simp [Token.opensValue, hl]
    have hunparen : (Expr.paren l inner).unparen = inner.unparen :=
      unparen_paren hinner.ne_absent
    refine ⟨l :: opening, value, back, by rw [tokens_of_here? hs, htokens]; rfl, ?_, ?_⟩
    · exact List.forall_mem_cons.2 ⟨hopens, hopening⟩
    · cases hvalue with
      | number hk hv => exact .number hk (hunparen.trans hv)
      | name hk hv => exact .name hk (hunparen.trans hv)

/-- Reading statements places the checks of names as long as no other tokens are ahead. -/
theorem permits_placed (tokens : List Token) :
    Permits (fun s => s.tokens <:+ tokens) (fun _ e => e.Placed tokens) where
  lasts hr hs := hr.tokens_suffix.trans hs
  complaint hc := by
    cases hc <;> exact .other rfl
  balance := .other rfl
  operand {s e s'} hs _ he := by
    obtain ⟨opening, value, back, htokens, -, hvalue⟩ := (yieldsExpr he).exists_value
    have hmem : value ∈ tokens := hs.subset (by simp [htokens])
    unfold checkOperand
    cases hvalue with
    | number hk hv =>
      rw [hv]
      exact .event (.other rfl)
    | name hk hv =>
      rw [hv]
      exact .event (.use hmem hk)
  assignment {s t a value s'} hs ht hk ha hassign he := by
    obtain ⟨opening, v, back, htokens, hopening, hvalue⟩ := (yieldsExpr he).exists_value
    have hassigns : Assigns tokens t v := by
      obtain ⟨front, hfront⟩ := hs
      refine ⟨hk, front, a, opening, back, ?_, hassign, hopening⟩
      rw [← hfront, tokens_of_here? ht, tokens_of_here? ha, htokens]
    unfold checkAssignment
    cases hvalue with
    | number hk hv =>
      rw [hv]
      exact .event (.assign hassigns hk)
    | name hk hv =>
      rw [hv]
      exact .event (.assignName hassigns hk)

end Reader

theorem placed_of_mem_trace (h : e ∈ trace source) : e.Placed (legalTokens source) := by
  rw [← story_readerAtEnd] at h
  have hdeclared :
      (Reader.ofScan (Scan.ofBytes source)).declared.tokens <:+ legalTokens source := by
    rw [← tokens_ofScan_eq_legalTokens]
    exact (Reader.reads_declared _).tokens_suffix
  rcases ((Reader.permits_placed _).reads_body hdeclared).mem_story h with h | ⟨-, hplaced⟩
  · exact .other (Reader.isNameCheck_of_mem_declared h)
  · exact hplaced

theorem Cause.message_undeclared (name : String) (line : Int) :
    ((undeclared name).onLine line).message = "undeclared variable '" ++ name ++ "'" := by
  simp [onLine, Diagnostic.ofCode, Message.format, Message.template?, Message.fill, code, operands,
    Message.Operand.placed, Message.surplus]

theorem Cause.eq_undeclared_of_code {c : Cause} (h : c.code = 106) :
    ∃ name, c = .undeclared name := by
  cases c with
  | undeclared name => exact ⟨name, rfl⟩
  | _ => exact absurd h (by simp [Cause.code])

namespace SymbolTable

variable {table : SymbolTable}

theorem eq_of_undeclared_checkAssign (h : .undeclared name ∈ (table.checkAssign target l).causes) :
    name = target := by
  have hliteral {type : ValueType} {text : String} :
      Cause.undeclared name ∉ (type.check text).causes :=
    fun hc => Bool.false_ne_true (ValueType.isOfLiteral_of_mem_check hc)
  cases hs : table.lookup? target with
  | none =>
    rcases (mem_causes_checkAssign_none hs).1 h with hname | hc
    · exact Cause.undeclared.inj hname
    · exact absurd hc hliteral
  | some s =>
    rcases (mem_causes_checkAssign_some hs).1 h with hc | ⟨-, -, hc⟩ | ⟨-, -, -, hc⟩ | ⟨-, -, -, hc⟩
    · exact absurd hc hliteral
    · cases hc
    · cases hc
    · exact absurd hc hliteral

theorem eq_or_eq_of_undeclared_checkAssignName
    (h : .undeclared name ∈ (table.checkAssignName target value).causes) :
    name = target ∨ name = value := by
  by_cases hn : table.lookup? target = none ∨ table.lookup? value = none
  · rcases (mem_causes_checkAssignName_none hn).1 h with ⟨-, hc⟩ | ⟨-, hc⟩
    · exact .inl (Cause.undeclared.inj hc)
    · exact .inr (Cause.undeclared.inj hc)
  · obtain ⟨hd, hs⟩ := not_or.1 hn
    obtain ⟨d, hd⟩ := Option.ne_none_iff_exists'.1 hd
    obtain ⟨s, hs⟩ := Option.ne_none_iff_exists'.1 hs
    rcases (mem_causes_checkAssignName_some hd hs).1 h with ⟨-, hc⟩ | ⟨-, -, hc⟩ | ⟨-, -, -, hc⟩ <;>
      cases hc

end SymbolTable

theorem isNameCheck_of_undeclared {r : Run} (he : e ∈ trace source) (hd : d ∈ r.reports e)
    (hcode : d.code = 106) : e.isNameCheck = true := by
  obtain ⟨c, n, hmay, rfl⟩ := Run.exists_of_mem_reports hd
  rw [Cause.code_onLine] at hcode
  obtain ⟨name, rfl⟩ := Cause.eq_undeclared_of_code hcode
  refine Event.isNameCheck_of_mayReport hmay (by simp [Cause.code]) ?_
  rintro c n rfl
  obtain rfl : c = .undeclared name := by simpa [Event.mayReport] using hmay
  exact absurd (isGrammatical_of_fault he) Bool.false_ne_true

/-- The lines on which a name of the tokens can be reported as undeclared. -/
inductive UndeclaredOn (tokens : List Token) (t : Token) : Int → Prop
  | own : UndeclaredOn tokens t t.line
  | number : Assigns tokens t value → value.kind = .number → UndeclaredOn tokens t value.line
  | target : Assigns tokens target t → UndeclaredOn tokens t target.line

theorem Event.Placed.undeclared {r : Run} (h : e.Placed tokens) (he : e.isNameCheck = true)
    (hd : d ∈ r.reports e) (hcode : d.code = 106) :
    ∃ t ∈ tokens, t.kind = .ident ∧ d = (Cause.undeclared t.lexeme).onLine d.line ∧
      UndeclaredOn tokens t d.line := by
  cases h with
  | other h =>
    rw [he] at h
    cases h
  | @use t ht hk =>
    obtain ⟨c, hc, rfl⟩ := Finding.mem_diagnostics.1 hd
    obtain ⟨-, rfl⟩ := SymbolTable.mem_causes_checkDeclared.1 hc
    exact ⟨t, ht, hk, rfl, .own⟩
  | @assign target value l ha hk =>
    obtain ⟨c, hc, rfl⟩ := Finding.mem_diagnostics.1 hd
    obtain ⟨name, rfl⟩ := Cause.eq_undeclared_of_code (by rwa [Cause.code_onLine] at hcode)
    obtain rfl := SymbolTable.eq_of_undeclared_checkAssign hc
    exact ⟨target, ha.target_mem, ha.name, rfl, .number ha hk⟩
  | @assignName target value ha hk =>
    obtain ⟨c, hc, rfl⟩ := Finding.mem_diagnostics.1 hd
    obtain ⟨name, rfl⟩ := Cause.eq_undeclared_of_code (by rwa [Cause.code_onLine] at hcode)
    rcases SymbolTable.eq_or_eq_of_undeclared_checkAssignName hc with rfl | rfl
    · exact ⟨target, ha.target_mem, ha.name, rfl, .own⟩
    · exact ⟨value, ha.value_mem, hk, rfl, .target ha⟩

/-- An undeclared name is reported where it stands, on the line of a number that it is assigned, or
on the line of the name that it is assigned to. Where every assignment stands on one line, that is
where the name stands. -/
theorem undeclared_reported_by_statement (source : List UInt8) (o : Options)
    (h : o.maxDiagnostics ≤ 0) :
    (∀ d ∈ (analyze source o).diagnostics, d.code = 106 →
        ∃ t ∈ (tokenize source).1, t.kind = .ident ∧
          d.message = "undeclared variable '" ++ t.lexeme ++ "'" ∧
          UndeclaredOn (legalTokens source) t d.line) ∧
      ((∀ target value, Assigns (legalTokens source) target value → target.line = value.line) →
        ∀ d ∈ (analyze source o).diagnostics, d.code = 106 →
          ∃ t ∈ (tokenize source).1, t.kind = .ident ∧
            d.message = "undeclared variable '" ++ t.lexeme ++ "'" ∧ d.line = t.line) := by
  have hreported : ∀ d ∈ (analyze source o).diagnostics, d.code = 106 →
      ∃ t ∈ (tokenize source).1, t.kind = .ident ∧
        d.message = "undeclared variable '" ++ t.lexeme ++ "'" ∧
        UndeclaredOn (legalTokens source) t d.line := by
    intro d hd hcode
    obtain ⟨before, e, after, htrace, hr⟩ :=
      Run.exists_of_mem_attempts ((mem_diagnostics_analyze h).1 hd)
    have hmem : e ∈ trace source := by simp [htrace]
    have hname := isNameCheck_of_undeclared hmem hr hcode
    obtain ⟨t, ht, hk, hd, hline⟩ := (placed_of_mem_trace hmem).undeclared hname hr hcode
    have hmessage := Cause.message_undeclared t.lexeme d.line
    rw [← hd] at hmessage
    exact ⟨t, (List.mem_filter.1 ht).1, hk, hmessage, hline⟩
  refine ⟨hreported, ?_⟩
  intro hlines d hd hcode
  obtain ⟨t, ht, hk, hmessage, hline⟩ := hreported d hd hcode
  refine ⟨t, ht, hk, hmessage, ?_⟩
  generalize d.line = n at hline
  cases hline with
  | own => rfl
  | number ha _ => rw [hlines t _ ha]
  | target ha => rw [hlines _ t ha]

/-- A source that assigns a number on the line after its target. -/
def splitAssignment : List UInt8 := "begin\n  y :=\n    1;\nend.".toUTF8.toList

/-- A source that assigns an undeclared name in parentheses. -/
def shortAssignment : List UInt8 := "var x: real; begin x := (y) end.".toUTF8.toList

theorem undeclared_reported_by_statement_assignments :
    ((0 : Int) ≤ 0 ∧ ⟨106, 3, "undeclared variable 'y'"⟩ ∈
        (analyze splitAssignment ⟨false, 0⟩).diagnostics ∧
      ∃ t ∈ (tokenize splitAssignment).1, t.kind = .ident ∧
        "undeclared variable 'y'" = "undeclared variable '" ++ t.lexeme ++ "'" ∧
        UndeclaredOn (legalTokens splitAssignment) t 3) ∧
    ((∀ target value, Assigns (legalTokens shortAssignment) target value →
        target.line = value.line) ∧
      ⟨106, 1, "undeclared variable 'y'"⟩ ∈ (analyze shortAssignment ⟨false, 0⟩).diagnostics ∧
      ∃ t ∈ (tokenize shortAssignment).1, t.kind = .ident ∧
        "undeclared variable 'y'" = "undeclared variable '" ++ t.lexeme ++ "'" ∧
        (1 : Int) = t.line) := by
  have hsplit : ⟨106, 3, "undeclared variable 'y'"⟩ ∈
      (analyze splitAssignment ⟨false, 0⟩).diagnostics := by
    decide +kernel
  have hshort : ⟨106, 1, "undeclared variable 'y'"⟩ ∈
      (analyze shortAssignment ⟨false, 0⟩).diagnostics := by
    decide +kernel
  have hline : ∀ t ∈ legalTokens shortAssignment, t.line = 1 := by
    decide +kernel
  have hlines (target value : Token) (ha : Assigns (legalTokens shortAssignment) target value) :
      target.line = value.line :=
    (hline _ ha.target_mem).trans (hline _ ha.value_mem).symm
  exact ⟨⟨Int.le_refl 0, hsplit, (undeclared_reported_by_statement splitAssignment ⟨false, 0⟩
      (Int.le_refl 0)).1 _ hsplit rfl⟩,
    hlines, hshort, (undeclared_reported_by_statement shortAssignment ⟨false, 0⟩
      (Int.le_refl 0)).2 hlines _ hshort rfl⟩

/-- A name can be reported on a line on which it does not stand. -/
theorem not_forall_undeclared_where_it_stands :
    ¬ ∀ (source : List UInt8) (o : Options), o.maxDiagnostics ≤ 0 →
      ∀ d ∈ (analyze source o).diagnostics, d.code = 106 →
        ∃ t ∈ (tokenize source).1, t.kind = .ident ∧
          d.message = "undeclared variable '" ++ t.lexeme ++ "'" ∧ d.line = t.line := by
  intro h
  have hd : ⟨106, 3, "undeclared variable 'y'"⟩ ∈
      (analyze splitAssignment ⟨false, 0⟩).diagnostics := by
    decide +kernel
  exact absurd (h splitAssignment ⟨false, 0⟩ (Int.le_refl 0) _ hd rfl) (by decide +kernel)

end PascalCheck
