import PascalCheck.Proofs.View.Reading

namespace PascalCheck
set_option autoImplicit true

namespace Reader

variable {v : View} [Log α] [Log β] (m : v.LogMap α β) (s : Reader α)

theorem signedNumber_view (sign : Token) :
    signedNumber (sign.view v) (s.view m) =
      ((signedNumber sign s).1.map (Expr.view v), (signedNumber sign s).2.view m) := by
  unfold signedNumber
  rw [here?_view]
  cases s.here? with
  | none => simp
  | some t =>
    by_cases hk : t.kind = .number
    · simp [hk, Expr.view, Literal.view]
    · simp [hk]

theorem expression_view :
    expression (s.view m) = ((expression s).1.map (Expr.view v), (expression s).2.view m) := by
  fun_induction expression s with
  | case1 s h =>
    rw [expression]
    split
    · simp
    · simp_all
  | case2 s t h hs =>
    rw [expression_cons (tokens_view_of_here? m h)]
    simp only [Token.is_view, hs, if_true, advance_view, signedNumber_view]
  | case3 s t h hs hk =>
    rw [expression_cons (tokens_view_of_here? m h)]
    simp [hs, hk, Expr.view]
  | case4 s t h hs hn hk =>
    rw [expression_cons (tokens_view_of_here? m h)]
    simp [hs, hk, Expr.view, Ident.view]
  | case5 s t h hs hn hk hp s' he ih =>
    rw [expression_cons (tokens_view_of_here? m h)]
    simp [hs, hn, hk, hp, ih, he]
  | case6 s t h hs hn hk hp inner s' he hr ih =>
    rw [expression_cons (tokens_view_of_here? m h)]
    simp [hs, hn, hk, hp, ih, he, hr, Expr.view]
  | case7 s t h hs hn hk hp inner s' he hr ih =>
    rw [expression_cons (tokens_view_of_here? m h)]
    simp [hs, hn, hk, hp, ih, he, hr]
  | case8 s t h hs hn hk hp =>
    rw [expression_cons (tokens_view_of_here? m h)]
    simp [hs, hn, hk, hp]

@[simp] theorem checkOperand_view (e : Expr) :
    (s.view m).checkOperand (e.view v) = (s.checkOperand e).view m := by
  unfold checkOperand
  rw [Expr.unparen_view]
  cases e.unparen with
  | number t text isReal =>
    simp only [Expr.view, Token.line_view]
    exact emit_view m s (e := .literal ⟨text, isReal⟩ t.line) rfl
  | ident id =>
    simp only [Expr.view, Ident.view, Token.line_view]
    exact emit_view m s (e := .use id.name id.token.line) rfl
  | absent => rfl
  | paren t inner => rfl

theorem names_view :
    names (s.view m) = ((names s).1.map (·.map (Token.view v)), (names s).2.view m) := by
  fun_induction names s with
  | case1 s h =>
    rw [names]
    split
    · simp
    · simp_all
  | case2 s t h hk hc s' hn ih =>
    rw [names_cons (tokens_view_of_here? m h) hk]
    simp [hc, ih, hn]
  | case3 s t h hk hc ts s' hn ih =>
    rw [names_cons (tokens_view_of_here? m h) hk]
    simp [hc, ih, hn]
  | case4 s t h hk hc =>
    rw [names_cons (tokens_view_of_here? m h) hk]
    simp [hc]
  | case5 s t h hk =>
    rw [names]
    split
    · simp_all
    · rename_i u hu
      obtain rfl : t.view v = u := by simpa [h] using hu
      rw [if_neg (by simpa using hk)]
      simp

theorem typeName_view : (s.view m).typeName = (s.typeName.1, s.typeName.2.view m) := by
  unfold typeName
  rw [here?_view]
  cases s.here? with
  | none => simp
  | some t =>
    by_cases hk : t.kind = .keyword
    · cases hc : ValueType.ofCode? t.code <;> simp [hk, hc]
    · simp [hk]

theorem typeAnnotation_view :
    typeAnnotation (s.view m) = (s.typeAnnotation.1, s.typeAnnotation.2.view m) := by
  unfold typeAnnotation
  rw [seesKind_view, advance_view, typeName_view]
  split
  · rfl
  · simp

theorem declareAll_view (symbols : List Symbol) :
    (s.view m).declareAll (symbols.map (Symbol.view v)) = (s.declareAll symbols).view m := by
  induction symbols generalizing s with
  | nil => rfl
  | cons symbol symbols ih =>
    have he := emit_view m s (e := .declare symbol) rfl
    exact (congrArg (·.declareAll (symbols.map (Symbol.view v))) he).trans (ih _)

theorem variableLine_view :
    variableLine (s.view m) =
      ((variableLine s).1.map (VarDecl.view v), (variableLine s).2.view m) := by
  unfold variableLine
  rw [names_view]
  rcases names s with ⟨_ | ts, s₁⟩
  · simp
  · simp only [Option.map_some, typeAnnotation_view]
    rcases s₁.typeAnnotation with ⟨_ | type, s₂⟩
    · simp
    · have hvars : (ts.map (Token.view v)).map (fun t => (⟨t, t.lexeme, type⟩ : VarDecl)) =
          (ts.map fun t => ⟨t, t.lexeme, type⟩).map (VarDecl.view v) := by
        simp [VarDecl.view]
      have hsymbols (ds : List VarDecl) : (ds.map (VarDecl.view v)).map VarDecl.symbol =
          (ds.map VarDecl.symbol).map (Symbol.view v) := by
        simp
      simp only [hvars, hsymbols, declareAll_view, expectSemicolon_view]

theorem variableSection_view :
    variableSection (s.view m) =
      ((variableSection s).1.map (VarDecl.view v), (variableSection s).2.view m) := by
  fun_induction variableSection s with
  | case1 s h line more ih =>
    rw [variableSection, dif_pos (by rwa [seesKind_view])]
    dsimp only [line, more] at ih ⊢
    simp [variableLine_view, ih]
  | case2 s h =>
    rw [variableSection, dif_neg (by rwa [seesKind_view])]
    rfl

theorem paramGroups_eq :
    paramGroups s =
      match names (s.accept Code.varWord) with
      | (none, s) => ([], false, s)
      | (some ts, t) =>
        match t.typeAnnotation with
        | (none, s) => ([], false, s)
        | (some type, u) =>
          let group : List Param := ts.map fun t => ⟨t.lexeme, type, t.place⟩
          if u.sees Code.semicolon then
            (group ++ (paramGroups u.advance).1, (paramGroups u.advance).2.1,
              (paramGroups u.advance).2.2)
          else if u.sees Code.rightParen then (group, true, u.advance)
          else (group, false, u.unexpected .rightParen) := by
  rw [paramGroups]
  split
  · rename_i h
    rw [h]
  · rename_i ts t h
    rw [h]
    dsimp only
    split
    · rename_i h'
      rw [h']
    · rename_i type u h'
      rw [h']
      rfl

theorem paramGroups_view :
    paramGroups (s.view m) =
      ((paramGroups s).1.map (Param.view v), (paramGroups s).2.1, (paramGroups s).2.2.view m) := by
  have hgroup (ts : List Token) (type : ValueType) :
      (ts.map (Token.view v)).map (fun t => (⟨t.lexeme, type, t.place⟩ : Param)) =
        (ts.map fun t => ⟨t.lexeme, type, t.place⟩).map (Param.view v) := by
    simp [Param.view]
  fun_induction paramGroups s with
  | case1 s t hn =>
    rw [paramGroups_eq, accept_view, names_view, hn]
    rfl
  | case2 s ts t hn u ha =>
    rw [paramGroups_eq, accept_view, names_view, hn]
    simp [typeAnnotation_view, ha]
  | case3 s ts t hn type u ha group hs more complete s' hp ih =>
    rw [paramGroups_eq, accept_view, names_view, hn]
    simp only [Option.map_some, typeAnnotation_view, ha, sees_view, hs, if_true, advance_view, ih,
      hp, hgroup, List.map_append]
    rfl
  | case4 s ts t hn type u ha group hs hr =>
    rw [paramGroups_eq, accept_view, names_view, hn]
    simp only [Option.map_some, typeAnnotation_view, ha, sees_view, hs, hr, if_true, if_false,
      advance_view, hgroup, Bool.false_eq_true]
    rfl
  | case5 s ts t hn type u ha group hs hr =>
    rw [paramGroups_eq, accept_view, names_view, hn]
    simp only [Option.map_some, typeAnnotation_view, ha, sees_view, hs, hr, if_false,
      unexpected_view, hgroup, Bool.false_eq_true]
    rfl

@[simp] theorem skipParams_view : (s.view m).skipParams = s.skipParams.view m := by
  unfold skipParams
  rw [skipWhile_view m s fun _ => rfl, accept_view]

theorem params_view :
    params (s.view m) = ((params s).1.map (Param.view v), (params s).2.view m) := by
  unfold params
  simp only [sees_view, advance_view, paramGroups_view]
  by_cases hl : s.sees Code.leftParen = true
  · by_cases hr : s.advance.sees Code.rightParen = true
    · simp [hl, hr]
    · rcases paramGroups s.advance with ⟨ps, _ | _, t⟩ <;> simp [hl, hr]
  · simp [hl]

theorem resultType_view (isFunction : Bool) :
    resultType isFunction (s.view m) =
      ((resultType isFunction s).1, (resultType isFunction s).2.view m) := by
  unfold resultType
  rw [typeAnnotation_view]
  cases isFunction <;> rfl

theorem namedRoutine_view (word name : Token) :
    namedRoutine (word.view v) (name.view v) (s.view m) =
      ((namedRoutine word name s).1.view v, (namedRoutine word name s).2.view m) := by
  have hdeclare (s : Reader α) (r : Routine) : (s.view m).emit (.declare (r.view v).symbol) =
      (s.emit (.declare r.symbol)).view m := by
    rw [Routine.symbol_view]
    exact emit_view m s (e := .declare r.symbol) rfl
  unfold namedRoutine
  simp only [params_view, resultType_view, Token.is_view]
  rw [← skipBodyIfThere_view, ← expectSemicolon_view, ← hdeclare]
  rfl

theorem routine_view (word : Token) :
    routine (word.view v) (s.view m) =
      ((routine word s).1.map (Routine.view v), (routine word s).2.view m) := by
  unfold routine
  rw [here?_view]
  cases s.here? with
  | none => simp
  | some t =>
    by_cases hk : t.kind = .ident
    · simp [hk, namedRoutine_view]
    · simp [hk]

theorem declarations_view :
    declarations (s.view m) =
      (((declarations s).1.1.map (VarDecl.view v), (declarations s).1.2.map (Routine.view v)),
        (declarations s).2.view m) := by
  fun_induction declarations s with
  | case1 s h =>
    rw [declarations_eq, here?_view, h]
    rfl
  | case2 s t h hv section_ more ih =>
    rw [declarations_eq, here?_view, h]
    dsimp only [section_, more] at ih ⊢
    simp [hv, variableSection_view, ih]
  | case3 s t h hv hr first more ih =>
    rw [declarations_eq, here?_view, h]
    have hfirst : ((routine t s.advance).1.map (Routine.view v)).toList =
        (routine t s.advance).1.toList.map (Routine.view v) := by
      cases (routine t s.advance).1 <;> rfl
    dsimp only [first, more] at ih ⊢
    simp [hv, hr, routine_view, ih, hfirst]
  | case4 s t h hv hr =>
    rw [declarations_eq, here?_view, h]
    simp only [Option.map_some, Token.is_view, hv, hr, if_false, Bool.false_eq_true]
    rfl

@[simp] theorem endStatement_view : (s.view m).endStatement = s.endStatement.view m := by
  unfold endStatement
  simp only [sees_view, atEnd_view, advance_view, lastLine_view]
  split
  · rfl
  · split
    · rfl
    · rw [← synchronize_view, ← report_view]
      rfl

@[simp] theorem checkAssignment_view (target : Ident) (value : Expr) :
    (s.view m).checkAssignment (target.view v) (value.view v) =
      (s.checkAssignment target value).view m := by
  unfold checkAssignment
  rw [Expr.unparen_view]
  cases value.unparen with
  | number t text isReal =>
    simp only [Expr.view, Ident.view, Token.line_view]
    exact emit_view m s (e := .assign target.name ⟨text, isReal⟩ t.line) rfl
  | ident source =>
    simp only [Expr.view, Ident.view, Token.line_view]
    exact emit_view m s (e := .assignName target.name source.name target.token.line) rfl
  | absent => rfl
  | paren t inner => rfl

theorem assignment_view (target : Ident) :
    assignment (target.view v) (s.view m) =
      ((assignment target s).1.map (Stmt.view v), (assignment target s).2.view m) := by
  have hmissing : ((s.view m).report .missingAssign (target.view v).token.line).synchronize =
      (s.report .missingAssign target.token.line).synchronize.view m := by
    rw [← synchronize_view, ← report_view]
    simp [Ident.view, Cause.view]
  unfold assignment
  rw [here?_view, hmissing]
  cases s.here? with
  | none => rfl
  | some t =>
    by_cases ha : t.is Code.assign = true
    · rcases he : expression s.advance with ⟨_ | value, s'⟩ <;>
        simp [ha, expression_view, he, Stmt.view]
    · simp [ha]

theorem arguments_view :
    arguments (s.view m) = ((arguments s).1.map (·.map (Expr.view v)), (arguments s).2.view m) := by
  fun_induction arguments s with
  | case1 s t h =>
    rw [arguments]
    split
    · simp_all [expression_view]
    · simp_all [expression_view]
  | case2 s e t h hc t' ha ih =>
    rw [arguments_expression ((expression_view m s).trans (by rw [h]; rfl))]
    simp [hc, ih, ha]
  | case3 s e t h hc es t' ha ih =>
    rw [arguments_expression ((expression_view m s).trans (by rw [h]; rfl))]
    simp [hc, ih, ha]
  | case4 s e t h hc =>
    rw [arguments_expression ((expression_view m s).trans (by rw [h]; rfl))]
    simp [hc]

theorem output_view (word : Token) :
    output (word.view v) (s.view m) =
      ((output word s).1.map (Stmt.view v), (output word s).2.view m) := by
  unfold output
  simp only [sees_view, advance_view, arguments_view]
  by_cases hl : s.sees Code.leftParen = true
  · by_cases hr : s.advance.sees Code.rightParen = true
    · simp [hl, hr, Stmt.view]
    · rcases arguments s.advance with ⟨_ | args, t⟩
      · simp [hl, hr]
      · by_cases hp : t.sees Code.rightParen = true <;> simp [hl, hr, hp, Stmt.view]
  · simp [hl, Stmt.view]

theorem simpleStatement_view (t : Token) :
    simpleStatement (t.view v) (s.view m) =
      ((simpleStatement t s).1.map (Stmt.view v), (simpleStatement t s).2.view m) := by
  have htarget : (⟨t.view v, (t.view v).lexeme⟩ : Ident) = (⟨t, t.lexeme⟩ : Ident).view v := rfl
  unfold simpleStatement
  simp only [Token.is_view, Token.kind_view, htarget, advance_view, assignment_view, output_view,
    unexpected_view, synchronize_view]
  split
  · rfl
  · split
    · rfl
    · split <;> rfl

@[simp] theorem closeBlock_view : (s.view m).closeBlock = s.closeBlock.view m := by
  unfold closeBlock
  rw [sees_view, advance_view, lastLine_view]
  split
  · rfl
  · exact report_view m s .missingEnd s.lastLine

theorem statements_view :
    statements (s.view m) = (Stmt.viewAll v (statements s).1, (statements s).2.view m) := by
  have hhere {s : Reader α} {t : Token} (h : s.here? = some t) :
      (s.view m).here? = some (t.view v) := by
    rw [here?_view, h]
    rfl
  induction s using statements_induction with
  | stop s h =>
    have hv (t : Token) (ht : (s.view m).here? = some t) : isBlockEnd t = true := by
      obtain ⟨u, hu, rfl⟩ : ∃ u, s.here? = some u ∧ u.view v = t := by simpa using ht
      exact h u hu
    rw [statements_stop h, statements_stop hv]
    rfl
  | block s t h hb ihin ihout =>
    rw [statements_block h hb, statements_block (hhere h) hb]
    simp [ihin, ihout, Stmt.viewAll, Stmt.view]
  | simple s t h he hb ih =>
    rw [statements_simple h he hb, statements_simple (hhere h) he hb]
    simp [simpleStatement_view, ih, Stmt.viewAll_toList]

@[simp] theorem openBody_view : (s.view m).openBody = s.openBody.view m := by
  unfold openBody
  rw [sees_view, advance_view, line_view]
  split
  · rfl
  · rw [← accept_view, ← skipWhile_view m _ fun _ => rfl, ← report_view]
    rfl

theorem block_view : (s.view m).block = (s.block.1.view v, s.block.2.view m) := by
  simp [block_eq, statements_view, Block.view]

theorem header_view : (s.view m).header = (v.text s.header.1, s.header.2.view m) := by
  unfold header
  simp only [sees_view, advance_view, here?_view]
  split
  · cases s.advance.here? with
    | none => simp
    | some t => by_cases hk : t.kind = .ident <;> simp [hk]
  · rfl

@[simp] theorem terminator_view : (s.view m).terminator = s.terminator.view m := by
  have hbalance : (s.view m).emit .balance = (s.emit .balance).view m :=
    emit_view m s (e := .balance) rfl
  unfold terminator
  simp only [sees_view, lastLine_view, hbalance, advance_view, atEnd_view, unexpected_view,
    drain_view]
  split
  · split <;> rfl
  · rw [← drain_view, ← report_view]
    rfl

theorem program_view : (s.view m).program = (s.program.1.view v, s.program.2.view m) := by
  simp [program_eq, declared, header_view, declarations_view, block_view, Program.view]

end Reader

/-- Tokens in a view are gathered into readings in that view: a hidden token leaves no events. -/
theorem Reading.gather_view (v : View) (negated : Bool) (pending : List Event)
    (tokens : List Token) :
    gather negated (v.events pending) ((tokens.filter v.shows).map (Token.view v)) =
      ((gather negated pending tokens).1.map (Reading.view v),
        v.events (gather negated pending tokens).2) := by
  -- An illegal character keeps the sign of the token before it, so hiding one changes no sign.
  induction tokens generalizing negated pending with
  | nil => rfl
  | cons t ts ih =>
    by_cases hu : t.kind = .unknown
    · by_cases hs : v.shows t = true
      · have hp : v.events (pending ++ [.scanned t]) =
            v.events pending ++ [.scanned (t.view v)] := by
          rw [View.events_append, View.events_cons v (e := .scanned t) hs]
          rfl
        rw [List.filter_cons_of_pos hs, List.map_cons, gather, gather, Token.kind_view, if_pos hu,
          if_pos hu, ← hp, ih]
      · have hp : v.events (pending ++ [.scanned t]) = v.events pending := by
          rw [View.events_append,
            View.events_hidden v (e := .scanned t) (Bool.eq_false_iff.2 hs)]
          exact List.append_nil _
        rw [List.filter_cons_of_neg hs, gather, if_pos hu, ← ih, hp]
    · have hs : v.shows t = true := by simp [View.shows, hu]
      have hnil : gather (t.is Code.minus) [] ((ts.filter v.shows).map (Token.view v)) =
          ((gather (t.is Code.minus) [] ts).1.map (Reading.view v),
            v.events (gather (t.is Code.minus) [] ts).2) := ih _ []
      simp [gather, hs, hu, hnil, Reading.view, View.events_cons v (e := .scanned t) hs, Event.view]

theorem Reader.start_view [Log α] [Log β] {v : View} (m : v.LogMap α β) (log : α) (scan : Scan) :
    start (m.apply log) (scan.view v) = (start log scan).view m := by
  have hg := Reading.gather_view v false [] scan.tokens
  rcases hr : Reading.gather false [] scan.tokens with ⟨rest, last⟩
  rw [hr] at hg
  have hgather : Reading.gather false [] (scan.view v).tokens =
      (rest.map (Reading.view v), v.events last) := hg
  have hended : v.events (last ++ [.ended scan.openQuote]) =
      v.events last ++ [.ended (scan.view v).openQuote] := by
    rw [View.events_append, View.events_cons v (e := .ended scan.openQuote) rfl]
    rfl
  simp only [start, hgather, hr, view, Reading.view, hended, m.apply_addAll]
  cases rest <;> simp [Scan.view, Reading.view, hended]

theorem Program.ofScan_view (v : View) (scan : Scan) :
    Program.ofScan (scan.view v) =
      ((Program.ofScan scan).1.view v, v.events (Program.ofScan scan).2) := by
  have hstart : Reader.ofScan (scan.view v) = (Reader.ofScan scan).view (.trace v) :=
    Reader.start_view (.trace v) #[] scan
  simp only [Program.ofScan, hstart, Reader.program_view]
  rfl

end PascalCheck
