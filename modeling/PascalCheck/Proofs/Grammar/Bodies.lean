import PascalCheck.Proofs.Grammar.Counting
import PascalCheck.Proofs.Reader.Reads

namespace PascalCheck.Grammar
set_option autoImplicit true

theorem IsRoutineWord.is_eq_false (h : IsRoutineWord w)
    (hf : Code.functionWord ≠ code) (hp : Code.procedureWord ≠ code) : w.is code = false := by
  rcases h with h | h
  · exact Token.is_eq_false h hf
  · exact Token.is_eq_false h hp

theorem Locals.trans : Locals H ts us → Locals H us vs → Locals H ts vs
  | .nil, k => k
  | .token hw hb h, k => .token hw hb (h.trans k)
  | .routine hw hh hc hbody h, k => .routine hw hh hc hbody (h.trans k)

def Remainder (H : List Token → Prop) (ts rest : List Token) : Prop :=
  ∃ us c, Locals H ts us ∧ Compound us (c :: rest) ∧ c.is Code.semicolon = true

theorem Remainder.prepend (hl : Locals H ts us) (h : Remainder H us rest) :
    Remainder H ts rest := by
  obtain ⟨vs, c, hl', hcompound, hc⟩ := h
  exact ⟨vs, c, hl.trans hl', hcompound, hc⟩

/-- What is left of a body and of as many bodies around it. -/
def Remainders (H : List Token → Prop) : Nat → List Token → List Token → Prop
  | 0, ts, rest => Remainder H ts rest
  | outer + 1, ts, rest => ∃ us, Remainder H ts us ∧ Remainders H outer us rest

theorem Remainders.prepend (hl : Locals H ts us) (h : Remainders H outer us rest) :
    Remainders H outer ts rest := by
  cases outer with
  | zero => exact Remainder.prepend hl h
  | succ outer =>
    obtain ⟨vs, hr, hrs⟩ := h
    exact ⟨vs, hr.prepend hl, hrs⟩

theorem parenChange_routineWord (h : IsRoutineWord w) : parenChange w = 0 := by
  have hl : w.is Code.leftParen = false := h.is_eq_false (by decide) (by decide)
  have hr : w.is Code.rightParen = false := h.is_eq_false (by decide) (by decide)
  simp [parenChange, hl, hr]

theorem headerThen_routineWord (hw : IsRoutineWord w) :
    HeaderThen 0 (w :: ts) rest ↔
      ∃ header c after, ts = header ++ c :: after ∧ rest = c :: after ∧
        c.is Code.semicolon = true ∧ NestedHeader header := by
  have hparen := parenChange_routineWord hw
  have hsemi : w.is Code.semicolon = false := hw.is_eq_false (by decide) (by decide)
  constructor
  · rintro ⟨header, c, after, hts, rfl, hc, he, hd⟩
    cases header with
    | nil =>
      obtain ⟨rfl, -⟩ : w = c ∧ ts = after := by simpa using hts
      simp [hsemi] at hc
    | cons u header =>
      obtain ⟨rfl, rfl⟩ : w = u ∧ ts = header ++ c :: after := by simpa using hts
      have he' := (enclosed_cons.1 he).2
      rw [hparen, Int.add_zero, enclosed_zero] at he'
      rw [parenDepth_cons, hparen] at hd
      exact ⟨header, c, after, rfl, rfl, hc, he', by omega⟩
  · rintro ⟨header, c, after, rfl, rfl, hc, hh⟩
    refine HeaderThen.cons (by simp [hsemi]) ?_
    rw [hparen]
    exact ⟨header, c, after, rfl, rfl, hc, enclosed_zero.2 hh.1, by simpa using hh.2⟩

end PascalCheck.Grammar

namespace PascalCheck.Reader
set_option autoImplicit true
open Grammar

theorem isBodyMark_iff : isBodyMark t = true ↔ IsRoutineWord t ∨ t.is Code.beginWord = true := by
  simp [isBodyMark, IsRoutineWord]

theorem seesForward_iff {s : Reader} :
    s.seesForward = true ↔ ∃ f ∈ s.tokens.head?, IsForward f := by
  simp [seesForward, here?_eq_head?, IsForward, Option.any_eq_true]

theorem locals_skipLocals (H : List Token → Prop) (s : Reader) :
    Locals H s.tokens s.skipLocals.tokens := by
  unfold skipLocals
  fun_induction skipWhile (fun t => !isBodyMark t) s with
  | case1 s h => exact .nil
  | case2 s t h hp ih =>
    have hmark : ¬ isBodyMark t = true := by simpa using hp
    rw [isBodyMark_iff, not_or] at hmark
    obtain ⟨hw, hb⟩ := hmark
    rw [tokens_of_here? h]
    exact .token hw (by simpa using hb) ih
  | case3 s t h hp => exact .nil

theorem isRoutineWord_of_skipLocals {s : Reader} (h : s.skipLocals.here? = some w)
    (hb : ¬ s.skipLocals.sees Code.beginWord = true) : IsRoutineWord w := by
  have hw : isBodyMark w = true := by simpa using here?_skipWhile h
  refine (isBodyMark_iff.1 hw).resolve_right fun hbegin => hb ?_
  rwa [sees_of_tokens (tokens_of_here? h)]

theorem skipBlock_sound {s : Reader} (hb : s.sees Code.beginWord = true)
    (h : s.skipBlock.Clean) :
    ∃ c, Compound s.tokens (c :: s.skipBlock.tokens) ∧ c.is Code.semicolon = true := by
  obtain ⟨c, hs, hc⟩ := expectSemicolon_sound h
  obtain ⟨b, ts, hs', hbegin⟩ := sees_iff.1 hb
  refine ⟨c, ?_, hc⟩
  rcases skipCompound_sound 0 s.advance with hnil | hinside
  · rw [hs] at hnil
    cases hnil
  · rw [hs, tokens_advance_of hs'] at hinside
    rw [hs']
    exact InsideThen.compound hbegin hinside

theorem skipToNested_sound {s : Reader} (hb : ¬ s.skipLocals.sees Code.beginWord = true)
    (he : ¬ s.skipToNested.atEnd = true) :
    ∃ w header c, s.skipLocals.tokens = w :: (header ++ c :: s.skipToNested.advance.tokens) ∧
      IsRoutineWord w ∧ NestedHeader header ∧ c.is Code.semicolon = true := by
  have hne : s.skipToNested.tokens ≠ [] := by simpa [atEnd_iff] using he
  have hheader : HeaderThen 0 s.skipLocals.tokens s.skipToNested.tokens :=
    (skipHeader_sound 0 s.skipLocals).resolve_left hne
  cases hs : s.skipLocals.tokens with
  | nil =>
    obtain ⟨header, c, after, hts, hrest, -⟩ := hheader
    simp [hs, hrest] at hts
  | cons w ts =>
    have hw := isRoutineWord_of_skipLocals (here?_of_tokens hs) hb
    rw [hs] at hheader
    obtain ⟨header, c, after, rfl, hrest, hc, hh⟩ := (headerThen_routineWord hw).1 hheader
    refine ⟨w, header, c, ?_, hw, hh, hc⟩
    rw [tokens_advance_of hrest]

/-- A reader that reports nothing in bodies has passed what was left of them, or everything. -/
theorem skipBodies_sound (h : (skipBodies outer s).Clean) :
    (skipBodies outer s).tokens = [] ∨
      Remainders NestedHeader outer s.tokens (skipBodies outer s).tokens := by
  fun_induction skipBodies outer s with
  | case1 s hb =>
    obtain ⟨c, hcompound, hc⟩ := skipBlock_sound hb h
    exact .inr ⟨_, c, locals_skipLocals _ s, hcompound, hc⟩
  | case2 s hb outer ih =>
    obtain ⟨c, hcompound, hc⟩ := skipBlock_sound hb ((reads_skipBodies outer _).clean h)
    exact (ih h).imp id fun hi => ⟨_, ⟨_, c, locals_skipLocals _ s, hcompound, hc⟩, hi⟩
  | case3 outer s hb he => exact .inl (atEnd_iff.1 he)
  | case4 outer s hb he hf ih =>
    obtain ⟨w, header, c, hs, hw, hh, hc⟩ := skipToNested_sound hb he
    obtain ⟨d, hs', hd⟩ := expectSemicolon_sound ((reads_skipBodies outer _).clean h)
    obtain ⟨f, hf', hforward⟩ := seesForward_iff.1 hf
    have hbody : Body NestedHeader s.skipToNested.advance.tokens
        s.skipToNested.advance.advance.expectSemicolon.tokens := by
      rw [tokens_of_here? ((here?_eq_head? _).trans hf'), hs']
      exact .forward hforward hd
    refine (ih h).imp id fun hi => Remainders.prepend ?_ hi
    refine (locals_skipLocals _ s).trans ?_
    rw [hs]
    exact .routine hw hh hc hbody .nil
  | case5 outer s hb he hf ih =>
    obtain ⟨w, header, c, hs, hw, hh, hc⟩ := skipToNested_sound hb he
    have hf' : ∀ f ∈ s.skipToNested.advance.tokens.head?, ¬ IsForward f := by
      intro f hmem hforward
      exact hf (seesForward_iff.2 ⟨f, hmem, hforward⟩)
    refine (ih h).imp id ?_
    rintro ⟨us, ⟨vs, d, hlocals, hcompound, hd⟩, hi⟩
    refine Remainders.prepend ?_ hi
    refine (locals_skipLocals _ s).trans ?_
    rw [hs]
    exact .routine hw hh hc (.block hf' hlocals hcompound hd) .nil

theorem skipBody_sound {s : Reader} (h : s.skipBody.Clean) :
    s.skipBody.tokens = [] ∨ Body NestedHeader s.tokens s.skipBody.tokens := by
  unfold skipBody at h ⊢
  split
  · rename_i hf
    rw [if_pos hf] at h
    obtain ⟨c, hs, hc⟩ := expectSemicolon_sound h
    obtain ⟨f, hf', hforward⟩ := seesForward_iff.1 hf
    rw [tokens_of_here? ((here?_eq_head? _).trans hf'), hs]
    exact .inr (.forward hforward hc)
  · rename_i hf
    rw [if_neg hf] at h
    have hf' : ∀ f ∈ s.tokens.head?, ¬ IsForward f := by
      intro f hmem hforward
      exact hf (seesForward_iff.2 ⟨f, hmem, hforward⟩)
    refine (skipBodies_sound h).imp id ?_
    rintro ⟨us, c, hlocals, hcompound, hc⟩
    exact .block hf' hlocals hcompound hc

theorem skipLocals_of_mark (hs : tokens s = t :: ts) (h : isBodyMark t = true) :
    s.skipLocals = s :=
  skipWhile_of_neg hs (by simp [h])

theorem skipLocals_of_other (hs : tokens s = t :: ts) (h : isBodyMark t = false) :
    s.skipLocals = s.advance.skipLocals :=
  skipWhile_of_pos hs (by simp [h])

theorem skipBodies_congr {s s' : Reader} (h : s.skipLocals = s'.skipLocals) (outer : Nat) :
    skipBodies outer s = skipBodies outer s' := by
  have hn : s.skipToNested = s'.skipToNested := by rw [skipToNested, h, skipToNested]
  rw [skipBodies.eq_def, skipBodies.eq_def outer s', h, hn]

theorem skipBodies_begin {s : Reader} (hs : s.tokens = b :: ts) (hb : b.is Code.beginWord = true)
    (outer : Nat) : skipBodies (outer + 1) s = skipBodies outer s.skipBlock := by
  have hl := skipLocals_of_mark hs (isBodyMark_iff.2 (.inr hb))
  rw [skipBodies.eq_def, hl, sees_of_tokens hs, dif_pos hb]

theorem skipBodies_zero_begin {s : Reader} (hs : s.tokens = b :: ts)
    (hb : b.is Code.beginWord = true) : skipBodies 0 s = s.skipBlock := by
  have hl := skipLocals_of_mark hs (isBodyMark_iff.2 (.inr hb))
  rw [skipBodies.eq_def, hl, sees_of_tokens hs, dif_pos hb]

/-- Passes a body within as many bodies, and the rest of those. -/
def enterBody (outer : Nat) (s : Reader) : Reader :=
  if s.seesForward then skipBodies outer s.advance.expectSemicolon else skipBodies (outer + 1) s

theorem skipBodies_routine {s : Reader} (hs : s.tokens = w :: ts) (hw : IsRoutineWord w)
    (hne : (skipHeader 0 s).tokens ≠ []) (outer : Nat) :
    skipBodies outer s = enterBody outer (skipHeader 0 s).advance := by
  have hl := skipLocals_of_mark hs (isBodyMark_iff.2 (.inl hw))
  have hb : w.is Code.beginWord = false := hw.is_eq_false (by decide) (by decide)
  have hn : s.skipToNested = skipHeader 0 s := by rw [skipToNested, hl]
  have he : ¬ (skipHeader 0 s).atEnd = true := by simpa [atEnd_iff] using hne
  rw [skipBodies.eq_def, hl, sees_of_tokens hs, dif_neg (by simp [hb]), hn, dif_neg he]
  rfl

theorem skipBlock_complete {s : Reader} (h : Compound s.tokens (c :: ts))
    (hc : c.is Code.semicolon = true) : Takes s s.skipBlock ts := by
  obtain ⟨b, us, hs, -, hinside⟩ := h.insideThen
  have ha := Takes.advance hs
  rw [← ha.tokens_eq] at hinside
  have hp : Takes s (skipCompound 0 s.advance) (c :: ts) :=
    ha.trans (skipCompound_complete hinside)
  exact hp.trans (.expectSemicolon hp.tokens_eq hc)

theorem skipHeader_nested {s : Reader} (hs : s.tokens = w :: (front ++ c :: ts))
    (hw : IsRoutineWord w) (hh : NestedHeader front) (hc : c.is Code.semicolon = true) :
    Takes s (skipHeader 0 s) (c :: ts) := by
  apply skipHeader_complete
  rw [hs]
  exact (headerThen_routineWord hw).2 ⟨front, c, ts, rfl, rfl, hc, hh⟩

mutual

theorem takes_body {s : Reader} (h : Body NestedHeader ts us) (hs : s.tokens = ts) :
    Takes s s.skipBody us ∧ ∀ outer, enterBody outer s = skipBodies outer s.skipBody :=
  match h with
  | .forward hf hc => by
    have hsees : s.seesForward = true := seesForward_iff.2 ⟨_, by simp [hs], hf⟩
    have ha := Takes.advance hs
    rw [skipBody, if_pos hsees]
    refine ⟨ha.trans (.expectSemicolon ha.tokens_eq hc), ?_⟩
    intro outer
    rw [enterBody, if_pos hsees]
  | .block hf hlocals hcompound hc => by
    have hsees : ¬ s.seesForward = true := by
      rw [seesForward_iff, hs]
      rintro ⟨f, hmem, hforward⟩
      exact hf f hmem hforward
    obtain ⟨s', hp, hskip⟩ := takes_locals hlocals hs
    rw [← hp.tokens_eq] at hcompound
    obtain ⟨b, vs, hs', hb, -⟩ := hcompound.insideThen
    rw [skipBody, if_neg hsees, hskip, skipBodies_zero_begin hs' hb]
    refine ⟨hp.trans (skipBlock_complete hcompound hc), ?_⟩
    intro outer
    rw [enterBody, if_neg hsees, hskip, skipBodies_begin hs' hb]

theorem takes_locals {s : Reader} (h : Locals NestedHeader ts us) (hs : s.tokens = ts) :
    ∃ s', Takes s s' us ∧ ∀ outer, skipBodies outer s = skipBodies outer s' :=
  match h with
  | .nil => ⟨s, .refl hs, fun _ => rfl⟩
  | .token hw hb hrest => by
    obtain ⟨s', hp, hskip⟩ := takes_locals hrest (tokens_advance_of hs)
    refine ⟨s', (Takes.advance hs).trans hp, ?_⟩
    intro outer
    rw [← hskip]
    apply skipBodies_congr
    apply skipLocals_of_other hs
    rw [Bool.eq_false_iff, ne_eq, isBodyMark_iff, not_or]
    exact ⟨hw, by simp [hb]⟩
  | .routine hw hheader hc hbody hrest => by
    have hhead := skipHeader_nested hs hw hheader hc
    have ha := Takes.advance hhead.tokens_eq
    obtain ⟨hp, henter⟩ := takes_body hbody ha.tokens_eq
    obtain ⟨s', hp', hskip⟩ := takes_locals hrest hp.tokens_eq
    refine ⟨s', hhead.trans (ha.trans (hp.trans hp')), ?_⟩
    intro outer
    rw [skipBodies_routine hs hw (by simp [hhead.tokens_eq]), henter, hskip]

end

end PascalCheck.Reader
