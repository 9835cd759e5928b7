import PascalCheck.Proofs.Grammar
import PascalCheck.Proofs.Lexemes
import PascalCheck.Proofs.Reader.Story
import PascalCheck.Tree.RoutineBody

namespace PascalCheck.Grammar
set_option autoImplicit true

@[simp] theorem parenDepth_nil : parenDepth [] = 0 := rfl

@[simp] theorem parenDepth_cons (t : Token) (ts : List Token) :
    parenDepth (t :: ts) = parenChange t + parenDepth ts := by
  simp [parenDepth]

@[simp] theorem level_nil : level [] = 0 := rfl

@[simp] theorem level_cons (t : Token) (ts : List Token) :
    level (t :: ts) = levelChange t + level ts := by
  simp [level]

theorem levelChange_begin (h : b.is Code.beginWord = true) : levelChange b = 1 := by
  simp [levelChange, h]

def Enclosed (depth : Int) (ts : List Token) : Prop :=
  ∀ before c after, ts = before ++ c :: after → c.is Code.semicolon = true →
    0 < depth + parenDepth before

theorem enclosed_nil (depth : Int) : Enclosed depth [] := by
  intro before c after h
  simp at h

theorem enclosed_cons :
    Enclosed depth (t :: ts) ↔
      (t.is Code.semicolon = true → 0 < depth) ∧ Enclosed (depth + parenChange t) ts := by
  constructor
  · intro h
    refine ⟨?_, ?_⟩
    · intro ht
      simpa using h [] t ts rfl ht
    · intro before c after hts hc
      have hd := h (t :: before) c after (by rw [hts]; rfl) hc
      rw [parenDepth_cons] at hd
      omega
  · rintro ⟨ht, hts⟩ before c after h hc
    cases before with
    | nil =>
      obtain ⟨rfl, -⟩ : t = c ∧ ts = after := by simpa using h
      simpa using ht hc
    | cons u before =>
      obtain ⟨rfl, rfl⟩ : t = u ∧ ts = before ++ c :: after := by simpa using h
      have hd := hts before c after rfl hc
      rw [parenDepth_cons]
      omega

theorem enclosed_zero : Enclosed 0 ts ↔ NoOuterSemicolon ts := by
  simp [Enclosed, NoOuterSemicolon]

/-- The tokens start with a header, entered at a depth, and go on with its semicolon. -/
def HeaderThen (depth : Int) (ts rest : List Token) : Prop :=
  ∃ header c after, ts = header ++ rest ∧ rest = c :: after ∧ c.is Code.semicolon = true ∧
    Enclosed depth header ∧ depth + parenDepth header ≤ 0

theorem HeaderThen.cons (ht : t.is Code.semicolon = true → 0 < depth)
    (h : HeaderThen (depth + parenChange t) ts rest) : HeaderThen depth (t :: ts) rest := by
  obtain ⟨header, c, after, rfl, hrest, hc, he, hd⟩ := h
  refine ⟨t :: header, c, after, rfl, hrest, hc, enclosed_cons.2 ⟨ht, he⟩, ?_⟩
  rw [parenDepth_cons]
  omega

/-- From a number of levels on, some level stays open until the last token. -/
def StaysOpen (levels : Int) (ts : List Token) : Prop :=
  ∀ front, front <+: ts → front ≠ ts → 0 < levels + level front

theorem staysOpen_nil (levels : Int) : StaysOpen levels [] := by
  intro front hf hne
  exact absurd (List.prefix_nil.1 hf) hne

theorem staysOpen_cons :
    StaysOpen levels (t :: ts) ↔ 0 < levels ∧ StaysOpen (levels + levelChange t) ts := by
  constructor
  · intro h
    refine ⟨?_, ?_⟩
    · simpa using h [] List.nil_prefix (by simp)
    · intro front hf hne
      have hl := h (t :: front) ((List.prefix_cons_inj t).2 hf) (by simpa using hne)
      rw [level_cons] at hl
      omega
  · rintro ⟨hl, hts⟩ front hf hne
    cases front with
    | nil => simpa using hl
    | cons u front =>
      obtain ⟨rfl, hf'⟩ := List.cons_prefix_cons.1 hf
      have hd := hts front hf' (by simpa using hne)
      rw [level_cons]
      omega

/-- The tokens start with the inside of a compound statement, entered with a number of levels
open, and go on after the end that closes the last of them. -/
def InsideThen (levels : Int) (ts rest : List Token) : Prop :=
  ∃ inside, ts = inside ++ rest ∧ levels + level inside = 0 ∧ StaysOpen levels inside

theorem InsideThen.cons (hl : 0 < levels) (h : InsideThen (levels + levelChange t) ts rest) :
    InsideThen levels (t :: ts) rest := by
  obtain ⟨inside, rfl, hlevel, ho⟩ := h
  refine ⟨t :: inside, rfl, ?_, staysOpen_cons.2 ⟨hl, ho⟩⟩
  rw [level_cons]
  omega

theorem InsideThen.compound (hb : b.is Code.beginWord = true) (h : InsideThen 1 ts rest) :
    Compound (b :: ts) rest := by
  obtain ⟨inside, rfl, hl, ho⟩ := h
  refine .mk hb ?_ ?_
  · rw [level_cons, levelChange_begin hb]
    exact hl
  · intro front hf hne
    rw [level_cons, levelChange_begin hb]
    exact ho front hf hne

theorem Compound.insideThen (h : Compound ts rest) :
    ∃ b us, ts = b :: us ∧ b.is Code.beginWord = true ∧ InsideThen 1 us rest := by
  obtain ⟨hb, hl, ho⟩ := h
  rename_i b inside
  rw [level_cons, levelChange_begin hb] at hl
  refine ⟨b, inside ++ rest, rfl, hb, inside, rfl, hl, ?_⟩
  intro front hf hne
  have h := ho front hf hne
  rwa [level_cons, levelChange_begin hb] at h

end PascalCheck.Grammar

namespace PascalCheck.Reader
set_option autoImplicit true
open Grammar

theorem skipHeader_sound (depth : Int) (s : Reader) :
    (skipHeader depth s).tokens = [] ∨
      HeaderThen depth s.tokens (skipHeader depth s).tokens := by
  fun_induction skipHeader depth s with
  | case1 depth s h => exact .inl (here?_eq_none_iff.1 h)
  | case2 depth s t h hp ih =>
    have hchange : parenChange t = 1 := by simp [parenChange, hp]
    have hsemi : t.is Code.semicolon = false := Token.is_eq_false hp (by decide)
    refine ih.imp id fun hi => ?_
    rw [tokens_of_here? h]
    refine HeaderThen.cons (by simp [hsemi]) ?_
    rwa [hchange]
  | case3 depth s t h hl hp ih =>
    have hchange : parenChange t = -1 := by simp [parenChange, hl, hp]
    have hsemi : t.is Code.semicolon = false := Token.is_eq_false hp (by decide)
    refine ih.imp id fun hi => ?_
    rw [tokens_of_here? h]
    refine HeaderThen.cons (by simp [hsemi]) ?_
    rwa [hchange, ← Int.sub_eq_add_neg]
  | case4 depth s t h hl hr hc =>
    obtain ⟨hsemi, hd⟩ : t.is Code.semicolon = true ∧ depth ≤ 0 := by simpa using hc
    refine .inr ⟨[], t, _, rfl, tokens_of_here? h, hsemi, enclosed_nil depth, ?_⟩
    simpa using hd
  | case5 depth s t h hl hr hc ih =>
    have hchange : parenChange t = 0 := by simp [parenChange, hl, hr]
    refine ih.imp id fun hi => ?_
    rw [tokens_of_here? h]
    refine HeaderThen.cons ?_ ?_
    · intro hsemi
      simpa [hsemi] using hc
    · rwa [hchange, Int.add_zero]

theorem skipHeader_cons [Log α] {s : Reader α} (hs : s.tokens = t :: ts) (depth : Int) :
    skipHeader depth s =
      if t.is Code.leftParen then skipHeader (depth + 1) s.advance
      else if t.is Code.rightParen then skipHeader (depth - 1) s.advance
      else if t.is Code.semicolon && depth ≤ 0 then s
      else skipHeader depth s.advance := by
  have hh := here?_of_tokens hs
  rw [skipHeader]
  split
  · simp_all
  · rename_i u hu
    obtain rfl : u = t := by simpa [hh] using hu.symm
    rfl

theorem skipHeader_complete (h : HeaderThen depth (tokens s) ts) :
    Takes s (skipHeader depth s) ts := by
  obtain ⟨header, c, after, hs, rfl, hc, he, hd⟩ := h
  induction header generalizing depth s with
  | nil =>
    have hl : c.is Code.leftParen = false := Token.is_eq_false hc (by decide)
    have hr : c.is Code.rightParen = false := Token.is_eq_false hc (by decide)
    have hd' : depth ≤ 0 := by simpa using hd
    rw [skipHeader_cons hs]
    simp only [hl, hr, hc, hd', Bool.false_eq_true, if_false, decide_true, Bool.and_self, if_true]
    exact .refl hs
  | cons t header ih =>
    obtain ⟨ht, he'⟩ := enclosed_cons.1 he
    rw [parenDepth_cons, ← Int.add_assoc] at hd
    have hi := (Takes.advance hs).trans (ih (tokens_advance_of hs) he' hd)
    rw [skipHeader_cons hs]
    unfold parenChange at hi
    split
    · rename_i hl
      simpa [hl] using hi
    split
    · rename_i hl hr
      simpa [hl, hr, Int.sub_eq_add_neg] using hi
    split
    · rename_i hc'
      obtain ⟨hsemi, hle⟩ : t.is Code.semicolon = true ∧ depth ≤ 0 := by simpa using hc'
      have := ht hsemi
      omega
    · rename_i hl hr hc'
      simpa [hl, hr] using hi

theorem levelChange_of_opens (h : opensLevel t = true) : levelChange t = 1 := by
  unfold opensLevel at h
  simp [levelChange, h]

theorem levelChange_of_end (h : ¬ opensLevel t = true) (he : t.is Code.endWord = true) :
    levelChange t = -1 := by
  unfold opensLevel at h
  simp [levelChange, h, he]

theorem levelChange_of_other (h : ¬ opensLevel t = true) (he : ¬ t.is Code.endWord = true) :
    levelChange t = 0 := by
  unfold opensLevel at h
  simp [levelChange, h, he]

theorem compound_empty (hb : b.is Code.beginWord = true) (he : e.is Code.endWord = true) :
    Compound (b :: e :: ts) ts := by
  have hopens : opensLevel e = false := by
    have hbegin : e.is Code.beginWord = false := Token.is_eq_false he (by decide)
    have hcase : e.is Code.caseWord = false := Token.is_eq_false he (by decide)
    have hrecord : e.is Code.recordWord = false := Token.is_eq_false he (by decide)
    simp [opensLevel, hbegin, hcase, hrecord]
  refine InsideThen.compound hb ⟨[e], rfl, ?_, staysOpen_cons.2 ⟨by decide, staysOpen_nil _⟩⟩
  rw [level_cons, levelChange_of_end (by simp [hopens]) he]
  rfl

/-- A reader that leaves a compound statement has passed its end. -/
theorem skipCompound_sound (levels : Nat) (s : Reader) :
    (skipCompound levels s).tokens = [] ∨
      InsideThen (levels + 1) s.tokens (skipCompound levels s).tokens := by
  fun_induction skipCompound levels s with
  | case1 levels s h => exact .inl (here?_eq_none_iff.1 h)
  | case2 levels s t h ho ih =>
    refine ih.imp id fun hi => ?_
    rw [tokens_of_here? h]
    refine InsideThen.cons (by omega) ?_
    rwa [levelChange_of_opens ho]
  | case3 s t h ho he =>
    refine .inr ⟨[t], tokens_of_here? h, ?_, staysOpen_cons.2 ⟨by omega, staysOpen_nil _⟩⟩
    rw [level_cons, levelChange_of_end ho he]
    rfl
  | case4 s t h ho he levels ih =>
    refine ih.imp id fun hi => ?_
    rw [tokens_of_here? h]
    refine InsideThen.cons (by omega) ?_
    have hl : ((levels + 1 : Nat) : Int) + 1 + levelChange t = levels + 1 := by
      rw [levelChange_of_end ho he]
      omega
    rwa [hl]
  | case5 levels s t h ho he ih =>
    refine ih.imp id fun hi => ?_
    rw [tokens_of_here? h]
    refine InsideThen.cons (by omega) ?_
    rwa [levelChange_of_other ho he, Int.add_zero]

theorem skipCompound_cons [Log α] {s : Reader α} (hs : s.tokens = t :: ts) (levels : Nat) :
    skipCompound levels s =
      if opensLevel t then skipCompound (levels + 1) s.advance
      else if t.is Code.endWord then
        match levels with
        | 0 => s.advance
        | levels + 1 => skipCompound levels s.advance
      else skipCompound levels s.advance := by
  have hh := here?_of_tokens hs
  rw [skipCompound.eq_def]
  split
  · simp_all
  · rename_i u hu
    obtain rfl : u = t := by simpa [hh] using hu.symm
    rfl

/-- The inside of a compound statement is passed with the end that closes it. -/
theorem skipCompound_complete {levels : Nat} (h : InsideThen (levels + 1) (tokens s) ts) :
    Takes s (skipCompound levels s) ts := by
  obtain ⟨inside, hs, hl, ho⟩ := h
  induction inside generalizing levels s with
  | nil =>
    rw [level_nil] at hl
    omega
  | cons t inside ih =>
    obtain ⟨-, ho'⟩ := staysOpen_cons.1 ho
    rw [level_cons] at hl
    -- The rest of the inside is passed with the levels that this token leaves open.
    have next {levels' : Nat} (he : (levels' : Int) = levels + levelChange t) :
        Takes s (skipCompound levels' s.advance) ts := by
      refine (Takes.advance hs).trans (ih (tokens_advance_of hs) (by omega) ?_)
      have hn : (levels : Int) + 1 + levelChange t = levels' + 1 := by omega
      rwa [← hn]
    rw [skipCompound_cons hs]
    split
    · rename_i hopens
      exact next (by rw [levelChange_of_opens hopens]; omega)
    split
    · rename_i hopens hend
      have hchange := levelChange_of_end hopens hend
      split
      · -- The last level is closed, so nothing of the inside is left.
        cases inside with
        | nil => exact .advance hs
        | cons u inside =>
          have := (staysOpen_cons.1 ho').1
          omega
      · exact next (by rw [hchange]; omega)
    · rename_i hopens hend
      exact next (by rw [levelChange_of_other hopens hend]; omega)

end PascalCheck.Reader
