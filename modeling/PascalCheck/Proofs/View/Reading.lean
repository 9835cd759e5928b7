import PascalCheck.Proofs.Grammar.Statements
import PascalCheck.Proofs.View.Basic

namespace PascalCheck
set_option autoImplicit true

/-- A log as it looks in a view, which may be a log of another kind. -/
structure View.LogMap (v : View) (α β : Type) [Log α] [Log β] where
  apply : α → β
  add_shown (log : α) (e : Event) : v.showsEvent e = true →
    apply (Log.add log e) = Log.add (apply log) (e.view v)
  add_hidden (log : α) (e : Event) : v.showsEvent e = false → apply (Log.add log e) = apply log

def View.LogMap.trace (v : View) : v.LogMap (Array Event) (Array Event) where
  apply trace := (v.events trace.toList).toArray
  add_shown trace e h := by simp [View.events, h]
  add_hidden trace e h := by simp [View.events, h]

theorem View.LogMap.apply_addAll [Log α] [Log β] {v : View} (m : v.LogMap α β) (log : α)
    (es : List Event) : m.apply (Log.addAll log es) = Log.addAll (m.apply log) (v.events es) := by
  induction es generalizing log with
  | nil => rfl
  | cons e es ih =>
    cases h : v.showsEvent e with
    | false =>
      rw [v.events_hidden h, ← m.add_hidden log e h]
      exact ih _
    | true =>
      rw [v.events_cons h]
      exact (ih _).trans (congrArg (Log.addAll · (v.events es)) (m.add_shown log e h))

def Reading.view (v : View) (r : Reading) : Reading := ⟨r.token.view v, v.events r.events⟩

namespace Reader

def view [Log α] [Log β] {v : View} (m : v.LogMap α β) (s : Reader α) : Reader β where
  prev := s.prev.map (Token.view v)
  rest := s.rest.map (Reading.view v)
  final := s.final.view v
  trace := m.apply s.trace

variable {v : View} [Log α] [Log β] (m : v.LogMap α β) (s : Reader α)

@[simp] theorem here?_view : (s.view m).here? = s.here?.map (Token.view v) := by
  cases hr : s.rest <;> simp [here?, view, Reading.view, hr]

@[simp] theorem current_view : (s.view m).current = s.current.view v := by
  cases hr : s.rest <;> simp [current, view, Reading.view, hr]

@[simp] theorem atEnd_view : (s.view m).atEnd = s.atEnd := by
  cases hr : s.rest <;> simp [atEnd, view, hr]

@[simp] theorem sees_view (code : Int) : (s.view m).sees code = s.sees code := by
  rw [sees, sees, here?_view]
  cases s.here? <;> rfl

@[simp] theorem seesKind_view (kind : Kind) : (s.view m).seesKind kind = s.seesKind kind := by
  rw [seesKind, seesKind, here?_view]
  cases s.here? <;> rfl

@[simp] theorem line_view : (s.view m).line = v.line s.line := by
  rw [line, line, current_view, Token.line_view]

@[simp] theorem lastLine_view : (s.view m).lastLine = v.line s.lastLine := by
  simp only [lastLine, view]
  cases s.prev with
  | none => exact line_view m s
  | some t => exact t.line_view v

theorem emit_view (h : v.showsEvent e = true) :
    (s.view m).emit (e.view v) = (s.emit e).view m := by
  simp only [emit, view, m.add_shown _ _ h]

@[simp] theorem advance_view : (s.view m).advance = s.advance.view m := by
  cases hr : s.rest with
  | nil =>
    have hended : Event.view v (.ended none) = .ended none := by
      simp [Event.view, View.openQuote]
    simp [advance, view, Reading.view, hr, m.add_shown _ (.ended none) rfl, hended]
  | cons r rs =>
    cases rs <;> simp [advance, view, Reading.view, hr, m.apply_addAll]

@[simp] theorem report_view (cause : Cause) (n : Nat) :
    (s.view m).report (cause.view v) (v.line n) = (s.report cause n).view m :=
  emit_view m s (e := .fault cause n) rfl

@[simp] theorem unexpected_view (wanted : Wanted) :
    (s.view m).unexpected wanted = (s.unexpected wanted).view m := by
  rw [unexpected, current_view, Token.describe_view, line_view]
  exact report_view m s (.unexpected wanted s.current.describe) s.line

theorem tokens_view_of_here? {s : Reader α} (h : s.here? = some t) :
    (s.view m).tokens = t.view v :: (s.view m).advance.tokens := by
  apply tokens_of_here?
  rw [here?_view, h]
  rfl

@[simp] theorem skipWhile_view {p : Token → Bool} (hp : ∀ t : Token, p (t.view v) = p t) :
    (s.view m).skipWhile p = (s.skipWhile p).view m := by
  fun_induction skipWhile p s with
  | case1 s h =>
    rw [skipWhile]
    split
    · rfl
    · simp_all
  | case2 s t h ht ih =>
    rw [skipWhile_of_pos (tokens_view_of_here? m h) ((hp t).trans ht), advance_view, ih]
  | case3 s t h ht =>
    rw [skipWhile_of_neg (tokens_view_of_here? m h) ((hp t).trans (by simpa using ht))]

@[simp] theorem drain_view : (s.view m).drain = s.drain.view m :=
  skipWhile_view m s fun _ => rfl

@[simp] theorem accept_view (code : Int) : (s.view m).accept code = (s.accept code).view m := by
  unfold accept
  rw [sees_view, advance_view]
  split <;> rfl

@[simp] theorem synchronize_view : (s.view m).synchronize = s.synchronize.view m := by
  unfold synchronize
  rw [skipWhile_view m s fun _ => rfl, accept_view]

@[simp] theorem expectSemicolon_view : (s.view m).expectSemicolon = s.expectSemicolon.view m := by
  unfold expectSemicolon
  rw [sees_view, advance_view, lastLine_view]
  split
  · rfl
  · rw [← synchronize_view, ← report_view]
    rfl

@[simp] theorem seesForward_view : (s.view m).seesForward = s.seesForward := by
  rw [seesForward, seesForward, here?_view]
  cases s.here? <;> simp

@[simp] theorem skipHeader_view (depth : Int) :
    skipHeader depth (s.view m) = (skipHeader depth s).view m := by
  fun_induction skipHeader depth s with
  | case1 depth s h =>
    rw [skipHeader]
    split
    · rfl
    · simp_all
  | case2 depth s t h hl ih =>
    rw [skipHeader_cons (tokens_view_of_here? m h), Token.is_view, if_pos hl, advance_view, ih]
  | case3 depth s t h hl hr ih =>
    rw [skipHeader_cons (tokens_view_of_here? m h)]
    simp [hl, hr, ih]
  | case4 depth s t h hl hr hs =>
    rw [skipHeader_cons (tokens_view_of_here? m h)]
    simp_all
  | case5 depth s t h hl hr hs ih =>
    rw [skipHeader_cons (tokens_view_of_here? m h)]
    simp only [Token.is_view, hl, hr, hs, if_false, Bool.false_eq_true, advance_view, ih]

@[simp] theorem skipCompound_view (levels : Nat) :
    skipCompound levels (s.view m) = (skipCompound levels s).view m := by
  have hopens (t : Token) : opensLevel (t.view v) = opensLevel t := rfl
  fun_induction skipCompound levels s with
  | case1 levels s h =>
    rw [skipCompound.eq_def]
    split
    · rfl
    · simp_all
  | case2 levels s t h ho ih =>
    rw [skipCompound_cons (tokens_view_of_here? m h), hopens, if_pos ho, advance_view, ih]
  | case3 s t h ho he =>
    rw [skipCompound_cons (tokens_view_of_here? m h)]
    simp [hopens, ho, he]
  | case4 s t h ho he levels ih =>
    rw [skipCompound_cons (tokens_view_of_here? m h)]
    simp [hopens, ho, he, ih]
  | case5 levels s t h ho he ih =>
    rw [skipCompound_cons (tokens_view_of_here? m h)]
    simp [hopens, ho, he, ih]

@[simp] theorem skipLocals_view : (s.view m).skipLocals = s.skipLocals.view m :=
  skipWhile_view m s fun _ => rfl

@[simp] theorem skipBlock_view : (s.view m).skipBlock = s.skipBlock.view m := by
  simp [skipBlock]

@[simp] theorem skipToNested_view : (s.view m).skipToNested = s.skipToNested.view m := by
  simp [skipToNested]

@[simp] theorem skipBodies_view (outer : Nat) :
    skipBodies outer (s.view m) = (skipBodies outer s).view m := by
  fun_induction skipBodies outer s with
  | case1 s hb => rw [skipBodies.eq_def]; simp [hb]
  | case2 s hb outer ih => rw [skipBodies.eq_def]; simp [hb, ih]
  | case3 outer s hb he => rw [skipBodies.eq_def]; simp [hb, he]
  | case4 outer s hb he hf ih => rw [skipBodies.eq_def]; simp [hb, he, hf, ih]
  | case5 outer s hb he hf ih => rw [skipBodies.eq_def]; simp [hb, he, hf, ih]

@[simp] theorem skipBody_view : (s.view m).skipBody = s.skipBody.view m := by
  unfold skipBody
  rw [seesForward_view, advance_view, expectSemicolon_view, skipBodies_view]
  split <;> rfl

@[simp] theorem atBody_view : (s.view m).atBody = s.atBody := by
  simp only [atBody, sees_view]
  congr 2
  simp only [view]
  cases s.prev <;> rfl

@[simp] theorem skipBodyIfThere_view :
    (s.view m).skipBodyIfThere = s.skipBodyIfThere.view m := by
  unfold skipBodyIfThere
  rw [atBody_view, skipBody_view]
  split <;> rfl

end Reader

end PascalCheck
