import PascalCheck.Tree.Basic
import PascalCheck.Tree.RoutineBody

namespace PascalCheck.Reader

variable {α : Type} [Log α]

def names (s : Reader α) : Option (List Token) × Reader α :=
  match _h : s.here? with
  | none => (none, s.unexpected .identifier)
  | some t =>
    if t.kind = .ident then
      if s.advance.sees Code.comma then
        match names s.advance.advance with
        | (none, s) => (none, s)
        | (some ts, s) => (some (t :: ts), s)
      else (some [t], s.advance)
    else (none, s.unexpected .identifier)
termination_by s.remaining
decreasing_by
  exact Nat.lt_of_le_of_lt s.advance.remaining_advance_le (remaining_advance_lt ‹_›)

theorem remaining_names_le (s : Reader α) : (names s).2.remaining ≤ s.remaining := by
  fun_induction names s with
  | case1 => exact Nat.le_refl _
  | case2 s t h hk hc s' hn ih =>
    rw [hn] at ih
    exact Nat.le_trans ih (Nat.le_trans s.advance.remaining_advance_le s.remaining_advance_le)
  | case3 s t h hk hc ts s' hn ih =>
    rw [hn] at ih
    exact Nat.le_trans ih (Nat.le_trans s.advance.remaining_advance_le s.remaining_advance_le)
  | case4 s t h hk hc => exact s.remaining_advance_le
  | case5 => exact Nat.le_refl _

theorem remaining_names_lt {s : Reader α} (h : s.seesKind .ident) :
    (names s).2.remaining < s.remaining := by
  cases ht : s.here? with
  | none => simp [seesKind, ht] at h
  | some t =>
    have hk : t.kind = .ident := by simpa [seesKind, ht] using h
    have hl := remaining_advance_lt ht
    have hn := remaining_names_le s.advance.advance
    have ha := s.advance.remaining_advance_le
    rw [names]
    split
    · simp_all
    · rename_i t' ht'
      obtain rfl : t = t' := by simpa [ht] using ht'
      simp only [hk, if_true]
      split
      · split
        · simp_all
          omega
        · simp_all
          omega
      · exact hl

def typeName (s : Reader α) : Option ValueType × Reader α :=
  match s.here? with
  | none => (none, s.unexpected .type)
  | some t =>
    if t.kind = .keyword then
      match ValueType.ofCode? t.code with
      | some type => (some type, s.advance)
      | none => (none, s.unexpected .type)
    else (none, s.unexpected .type)

def typeAnnotation (s : Reader α) : Option ValueType × Reader α :=
  if s.seesKind .colon then s.advance.typeName else (none, s.unexpected .colon)

theorem remaining_typeName_le (s : Reader α) : s.typeName.2.remaining ≤ s.remaining := by
  unfold typeName
  split
  · exact Nat.le_refl _
  split
  · split
    · exact s.remaining_advance_le
    · exact Nat.le_refl _
  · exact Nat.le_refl _

theorem remaining_typeAnnotation_le (s : Reader α) :
    s.typeAnnotation.2.remaining ≤ s.remaining := by
  unfold typeAnnotation
  split
  · exact Nat.le_trans s.advance.remaining_typeName_le s.remaining_advance_le
  · exact Nat.le_refl _

def declareAll (s : Reader α) (symbols : List Symbol) : Reader α :=
  symbols.foldl (fun s symbol => s.emit (.declare symbol)) s

@[simp] theorem remaining_declareAll (s : Reader α) (symbols : List Symbol) :
    (s.declareAll symbols).remaining = s.remaining := by
  induction symbols generalizing s with
  | nil => rfl
  | cons symbol symbols ih => exact ih _

def variableLine (s : Reader α) : List VarDecl × Reader α :=
  match names s with
  | (none, s) => ([], s.synchronize)
  | (some ts, s) =>
    match s.typeAnnotation with
    | (none, s) => ([], s.synchronize)
    | (some type, s) =>
      let vars : List VarDecl := ts.map fun t => ⟨t, t.lexeme, type⟩
      (vars, (s.declareAll (vars.map VarDecl.symbol)).expectSemicolon)

theorem remaining_variableLine_lt {s : Reader α} (h : s.seesKind .ident) :
    (variableLine s).2.remaining < s.remaining := by
  have hn := remaining_names_lt h
  unfold variableLine
  split
  · rename_i s₁ h₁
    rw [h₁] at hn
    exact Nat.lt_of_le_of_lt s₁.remaining_synchronize_le hn
  · rename_i ts s₁ h₁
    rw [h₁] at hn
    have ha := s₁.remaining_typeAnnotation_le
    split
    · rename_i s₂ h₂
      rw [h₂] at ha
      exact Nat.lt_of_le_of_lt (Nat.le_trans s₂.remaining_synchronize_le ha) hn
    · rename_i type s₂ h₂
      rw [h₂] at ha
      refine Nat.lt_of_le_of_lt (Nat.le_trans (remaining_expectSemicolon_le _) ?_) hn
      simpa using ha

def variableSection (s : Reader α) : List VarDecl × Reader α :=
  if _h : s.seesKind .ident then
    let line := variableLine s
    let more := variableSection line.2
    (line.1 ++ more.1, more.2)
  else ([], s)
termination_by s.remaining
decreasing_by exact remaining_variableLine_lt ‹_›

theorem remaining_variableSection_le (s : Reader α) :
    (variableSection s).2.remaining ≤ s.remaining := by
  fun_induction variableSection s with
  | case1 s h line more ih => exact Nat.le_trans ih (Nat.le_of_lt (remaining_variableLine_lt h))
  | case2 => exact Nat.le_refl _

/-- Reads groups of parameters up to the closing parenthesis: those read so far, and whether the
list was read to its end. -/
def paramGroups (s : Reader α) : List Param × Bool × Reader α :=
  match _hn : names (s.accept Code.varWord) with
  | (none, s) => ([], false, s)
  | (some ts, t) =>
    match _ha : t.typeAnnotation with
    | (none, s) => ([], false, s)
    | (some type, u) =>
      let group : List Param := ts.map fun t => ⟨t.lexeme, type, t.place⟩
      if _hs : u.sees Code.semicolon then
        let (more, complete, s) := paramGroups u.advance
        (group ++ more, complete, s)
      else if u.sees Code.rightParen then (group, true, u.advance)
      else (group, false, u.unexpected .rightParen)
termination_by s.remaining
decreasing_by
  have h₁ := remaining_accept_le s Code.varWord
  have h₂ := remaining_names_le (s.accept Code.varWord)
  have h₃ := t.remaining_typeAnnotation_le
  have h₄ := remaining_advance_lt_of_sees ‹u.sees Code.semicolon = true›
  simp_all
  omega

theorem remaining_le_of_group {s t u : Reader α}
    (hn : names (s.accept Code.varWord) = (some ts, t)) (ha : t.typeAnnotation = (type, u)) :
    u.remaining ≤ s.remaining := by
  have hnames := remaining_names_le (s.accept Code.varWord)
  have htype := t.remaining_typeAnnotation_le
  rw [hn] at hnames
  rw [ha] at htype
  exact Nat.le_trans htype (Nat.le_trans hnames (remaining_accept_le s Code.varWord))

theorem remaining_paramGroups_le (s : Reader α) :
    (paramGroups s).2.2.remaining ≤ s.remaining := by
  fun_induction paramGroups s with
  | case1 s t hn =>
    have hnames := remaining_names_le (s.accept Code.varWord)
    rw [hn] at hnames
    exact Nat.le_trans hnames (remaining_accept_le s Code.varWord)
  | case2 s ts t hn u ha => exact remaining_le_of_group hn ha
  | case3 s ts t hn type u ha group hs more complete s' hp ih =>
    rw [hp] at ih
    exact Nat.le_trans ih (Nat.le_trans u.remaining_advance_le (remaining_le_of_group hn ha))
  | case4 s ts t hn type u ha group hs hp =>
    exact Nat.le_trans u.remaining_advance_le (remaining_le_of_group hn ha)
  | case5 s ts t hn type u ha group hs hp =>
    rw [remaining_unexpected]
    exact remaining_le_of_group hn ha

/-- Skips a broken list of parameters: past its parenthesis, or up to a block or a variable
section. -/
def skipParams (s : Reader α) : Reader α :=
  (s.skipWhile fun t =>
    !(t.is Code.beginWord || t.is Code.varWord || t.is Code.rightParen)).accept Code.rightParen

theorem remaining_skipParams_le (s : Reader α) : s.skipParams.remaining ≤ s.remaining :=
  Nat.le_trans (remaining_accept_le _ _) (remaining_skipWhile_le _ _)

def params (s : Reader α) : List Param × Reader α :=
  if s.sees Code.leftParen then
    if s.advance.sees Code.rightParen then ([], s.advance.advance)
    else
      match paramGroups s.advance with
      | (ps, true, t) => (ps, t)
      | (ps, false, t) => (ps, t.skipParams)
  else ([], s)

theorem remaining_params_le (s : Reader α) : (params s).2.remaining ≤ s.remaining := by
  have hg := Nat.le_trans (remaining_paramGroups_le s.advance) s.remaining_advance_le
  unfold params
  split
  · split
    · exact Nat.le_trans s.advance.remaining_advance_le s.remaining_advance_le
    · split
      · rename_i hx
        rwa [hx] at hg
      · rename_i ps t hx
        rw [hx] at hg
        exact Nat.le_trans t.remaining_skipParams_le hg
  · exact Nat.le_refl _

/-- Reads the type of a function's result; a result that cannot be read has no type. -/
def resultType (isFunction : Bool) (s : Reader α) : ValueType × Reader α :=
  if isFunction then (s.typeAnnotation.1.getD .none, s.typeAnnotation.2) else (.none, s)

theorem remaining_resultType_le (isFunction : Bool) (s : Reader α) :
    (resultType isFunction s).2.remaining ≤ s.remaining := by
  unfold resultType
  split
  · exact s.remaining_typeAnnotation_le
  · exact Nat.le_refl _

/-- The reader stands where a body can start: after a semicolon, at a block or at a variable
section. -/
def atBody (s : Reader α) : Bool :=
  s.prev.any (·.is Code.semicolon) || s.sees Code.beginWord || s.sees Code.varWord

def skipBodyIfThere (s : Reader α) : Reader α := if s.atBody then s.skipBody else s

theorem remaining_skipBodyIfThere_le (s : Reader α) :
    s.skipBodyIfThere.remaining ≤ s.remaining := by
  unfold skipBodyIfThere
  split
  · exact s.remaining_skipBody_le
  · exact Nat.le_refl _

def namedRoutine (word name : Token) (s : Reader α) : Routine × Reader α :=
  let isFunction := word.is Code.functionWord
  let (ps, s) := s.params
  let (result, s) := s.resultType isFunction
  let routine : Routine := ⟨word, name.lexeme, ps, result, isFunction⟩
  (routine, (s.emit (.declare routine.symbol)).expectSemicolon.skipBodyIfThere)

theorem remaining_namedRoutine_le (word name : Token) (s : Reader α) :
    (namedRoutine word name s).2.remaining ≤ s.remaining := by
  have h₁ := s.remaining_params_le
  have h₂ := remaining_resultType_le (word.is Code.functionWord) s.params.2
  refine Nat.le_trans (remaining_skipBodyIfThere_le _)
    (Nat.le_trans (remaining_expectSemicolon_le _) ?_)
  exact Nat.le_trans h₂ h₁

/-- Reads the header of a routine from the place after its first word, declares it and skips its
body. -/
def routine (word : Token) (s : Reader α) : Option Routine × Reader α :=
  match s.here? with
  | none => (none, (s.unexpected .routineName).synchronize.skipBodyIfThere)
  | some t =>
    if t.kind = .ident then
      let (r, s) := namedRoutine word t s.advance
      (some r, s)
    else (none, (s.unexpected .routineName).synchronize.skipBodyIfThere)

theorem remaining_routine_le (word : Token) (s : Reader α) :
    (routine word s).2.remaining ≤ s.remaining := by
  have hs : (s.unexpected .routineName).synchronize.skipBodyIfThere.remaining ≤ s.remaining :=
    Nat.le_trans (remaining_skipBodyIfThere_le _) (remaining_synchronize_le _)
  unfold routine
  split
  · exact hs
  split
  · exact Nat.le_trans (remaining_namedRoutine_le _ _ _) s.remaining_advance_le
  · exact hs

def declarations (s : Reader α) : (List VarDecl × List Routine) × Reader α :=
  match _h : s.here? with
  | none => (([], []), s)
  | some t =>
    if t.is Code.varWord then
      let section_ := variableSection s.advance
      let more := declarations section_.2
      ((section_.1 ++ more.1.1, more.1.2), more.2)
    else if t.is Code.functionWord || t.is Code.procedureWord then
      let first := routine t s.advance
      let more := declarations first.2
      ((more.1.1, first.1.toList ++ more.1.2), more.2)
    else (([], []), s)
termination_by s.remaining
decreasing_by
  · exact Nat.lt_of_le_of_lt (remaining_variableSection_le _) (remaining_advance_lt ‹_›)
  · exact Nat.lt_of_le_of_lt (remaining_routine_le _ _) (remaining_advance_lt ‹_›)

end PascalCheck.Reader
