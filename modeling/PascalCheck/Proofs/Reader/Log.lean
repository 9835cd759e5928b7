import PascalCheck.Proofs.Reader.Statements

namespace PascalCheck
set_option autoImplicit true

def Event.isNameCheck : Event → Bool
  | .use _ _ | .assign _ _ _ | .assignName _ _ _ => true
  | _ => false

namespace Reader

def log (s : Reader) : List Event := s.trace.toList.filter Event.isOwn

theorem log_emit_own (s : Reader) (he : e.isOwn = true) : (s.emit e).log = s.log ++ [e] := by
  simp [log, emit, he]

theorem log_emit_other (s : Reader) (he : e.isOwn = false) : (s.emit e).log = s.log := by
  simp [log, emit, he]

theorem Sound.log_advance (h : Sound s) (ht : s.here? = some t) : s.advance.log = s.log := by
  cases hr : s.rest with
  | nil => simp [here?, hr] at ht
  | cons r rs =>
    have hnone : ∀ e ∈ (rs.headD s.final).events, e.isOwn = false := by
      intro e he
      apply h.plain
      cases rs with
      | nil => simpa [upcoming, hr] using he
      | cons r' rs => simp_all [upcoming]
    have hquiet : (rs.headD s.final).events.filter Event.isOwn = [] := by
      simpa [List.filter_eq_nil_iff] using hnone
    rw [advance_of_rest_cons hr, log, Array.toList_appendList, List.filter_append, hquiet,
      List.append_nil, log]

theorem Sound.mem_log_iff (h : Sound s) (he : e.isOwn = true) : e ∈ s.log ↔ e ∈ s.story := by
  constructor
  · intro hmem
    exact List.mem_append_left _ (List.mem_filter.1 hmem).1
  · intro hmem
    rcases List.mem_append.1 hmem with hmem | hmem
    · exact List.mem_filter.2 ⟨hmem, he⟩
    · rw [h.plain e hmem] at he
      cases he

theorem Sound.clean_iff (h : Sound s) : s.Clean ↔ ∀ c n, .fault c n ∉ s.log := by
  have hfault (c : Cause) (n : Nat) : .fault c n ∈ s.log ↔ .fault c n ∈ s.story :=
    h.mem_log_iff rfl
  simp only [Clean, hfault]

/-- Between two readers some tokens are taken and some events are logged. -/
structure Took (s : Reader) (xs : List Token) (es : List Event) (s' : Reader) : Prop where
  tokens_eq : s.tokens = xs ++ s'.tokens
  log_eq : s'.log = s.log ++ es
  prev_eq : s'.prev = xs.getLast?.or s.prev
  sound : s'.Sound

namespace Took

theorem refl (h : Sound s) : Took s [] [] s := ⟨rfl, (List.append_nil _).symm, rfl, h⟩

theorem trans (h : Took s xs es s') (k : Took s' ys fs s'') :
    Took s (xs ++ ys) (es ++ fs) s'' := by
  refine ⟨?_, ?_, ?_, k.sound⟩
  · rw [h.tokens_eq, k.tokens_eq, List.append_assoc]
  · rw [k.log_eq, h.log_eq, List.append_assoc]
  · rw [k.prev_eq, h.prev_eq, List.getLast?_append, Option.or_assoc]

theorem advance (h : Sound s) (hs : s.tokens = t :: ts) : Took s [t] [] s.advance := by
  have ht := here?_of_tokens hs
  refine ⟨tokens_of_here? ht, ?_, prev_advance ht, h.advance⟩
  rw [h.log_advance ht, List.append_nil]

theorem take (h : Took s xs es s') (hs : s'.tokens = t :: ts) :
    Took s (xs ++ [t]) es s'.advance := by
  have hall := h.trans (.advance h.sound hs)
  rwa [List.append_nil] at hall

theorem emit (h : Sound s) (he : e.isOwn = true) : Took s [] [e] (s.emit e) :=
  ⟨rfl, log_emit_own s he, rfl, h.emit e⟩

theorem emit_other (h : Sound s) (he : e.isOwn = false) : Took s [] [] (s.emit e) := by
  refine ⟨rfl, ?_, rfl, h.emit e⟩
  rw [log_emit_other s he, List.append_nil]

theorem rest_eq (h : Took s xs es s') (hs : s.tokens = xs ++ vs) : s'.tokens = vs :=
  List.append_cancel_left (h.tokens_eq.symm.trans hs)

theorem lastLine_eq (h : Took s (xs ++ [t]) es s') : s'.lastLine = t.line := by
  rw [lastLine, h.prev_eq, List.getLast?_concat]
  rfl

theorem passes (h : Took s xs es s') (hs : s.Sound) (hes : ∀ c n, .fault c n ∉ es) :
    Passes s s' s'.tokens := by
  refine ⟨rfl, ?_⟩
  intro hclean
  rw [h.sound.clean_iff, h.log_eq]
  rw [hs.clean_iff] at hclean
  intro c n hmem
  rcases List.mem_append.1 hmem with hmem | hmem
  · exact hclean c n hmem
  · exact hes c n hmem

end Took

theorem exists_checkOperand (e : Expr) :
    ∃ es, (∀ e ∈ es, e.isNameCheck = true) ∧
      ∀ s : Reader, s.Sound → Took s [] es (s.checkOperand e) := by
  unfold checkOperand
  split
  · exact ⟨[], by simp, fun s hs => .emit_other hs rfl⟩
  · exact ⟨_, List.forall_mem_singleton.2 rfl, fun s hs => .emit hs rfl⟩
  · exact ⟨[], by simp, fun s hs => .refl hs⟩

theorem exists_checkAssignment (target : Ident) (value : Expr) :
    ∃ es, (∀ e ∈ es, e.isNameCheck = true) ∧
      ∀ s : Reader, s.Sound → Took s [] es (s.checkAssignment target value) := by
  unfold checkAssignment
  split
  · exact ⟨_, List.forall_mem_singleton.2 rfl, fun s hs => .emit hs rfl⟩
  · exact ⟨_, List.forall_mem_singleton.2 rfl, fun s hs => .emit hs rfl⟩
  · exact ⟨[], by simp, fun s hs => .refl hs⟩

end Reader

end PascalCheck
