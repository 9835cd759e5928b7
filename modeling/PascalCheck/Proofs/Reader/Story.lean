import PascalCheck.Tree.Reader

namespace PascalCheck.Reader
set_option autoImplicit true

def tokens (s : Reader α) : List Token := s.rest.map Reading.token

/-- The events that taking the tokens ahead adds; those of the first of them have happened. -/
def upcoming (s : Reader) : List Event :=
  match s.rest with
  | [] => []
  | _ :: rs => rs.flatMap Reading.events ++ s.final.events

/-- The events so far and those to come. -/
def story (s : Reader) : List Event := s.trace.toList ++ s.upcoming

theorem here?_eq_head? (s : Reader α) : s.here? = s.tokens.head? := by
  simp [here?, tokens]

@[simp] theorem tokens_emit [Log α] (s : Reader α) (e : Event) : (s.emit e).tokens = s.tokens := rfl

theorem advance_of_rest_nil {s : Reader} (h : s.rest = []) : s.advance =
    { s with prev := some s.final.token, trace := s.trace.push (.ended none) } := by
  simp [advance, h]

theorem advance_of_rest_cons {s : Reader} (h : s.rest = r :: rs) : s.advance =
    { s with prev := some r.token, rest := rs, trace := s.trace ++ (rs.headD s.final).events } := by
  simp [advance, h]

theorem tokens_advance [Log α] (s : Reader α) : s.advance.tokens = s.tokens.tail := by
  unfold advance
  split <;> simp_all [tokens]

theorem tokens_advance_of [Log α] {s : Reader α} (h : s.tokens = t :: ts) :
    s.advance.tokens = ts := by
  rw [tokens_advance, h]
  rfl

theorem here?_of_tokens (h : tokens s = t :: ts) : s.here? = some t := by
  rw [here?_eq_head?, h]
  rfl

theorem tokens_of_here? [Log α] {s : Reader α} (h : s.here? = some t) :
    s.tokens = t :: s.advance.tokens := by
  rw [here?_eq_head?] at h
  cases hs : s.tokens with
  | nil => simp [hs] at h
  | cons u us =>
    rw [tokens_advance_of hs]
    simp_all

theorem here?_eq_none_iff {s : Reader α} : s.here? = none ↔ s.tokens = [] := by
  rw [here?_eq_head?]
  exact List.head?_eq_none_iff

theorem atEnd_iff {s : Reader α} : s.atEnd = true ↔ s.tokens = [] := by
  simp [atEnd, tokens]

theorem sees_of_tokens (h : tokens s = t :: ts) (code : Int) : s.sees code = t.is code := by
  simp [sees, here?_of_tokens h]

theorem seesKind_of_tokens (h : tokens s = t :: ts) (kind : Kind) :
    s.seesKind kind = (t.kind == kind) := by
  simp [seesKind, here?_of_tokens h]

theorem sees_iff {s : Reader α} {code : Int} :
    s.sees code = true ↔ ∃ t ts, s.tokens = t :: ts ∧ t.is code = true := by
  cases hs : s.tokens with
  | nil => simp [sees, here?_eq_none_iff.2 hs]
  | cons t ts => simp [sees_of_tokens hs]

theorem seesKind_iff {s : Reader α} {kind : Kind} :
    s.seesKind kind = true ↔ ∃ t ts, s.tokens = t :: ts ∧ t.kind = kind := by
  cases hs : s.tokens with
  | nil => simp [seesKind, here?_eq_none_iff.2 hs]
  | cons t ts => simp [seesKind_of_tokens hs]

theorem prev_advance (h : here? s = some t) : s.advance.prev = some t := by
  cases hr : s.rest with
  | nil => simp [here?, hr] at h
  | cons r rs => simp_all [here?, advance]

theorem skipWhile_of_pos [Log α] {s : Reader α} {p : Token → Bool} (hs : s.tokens = t :: ts)
    (hp : p t = true) : s.skipWhile p = s.advance.skipWhile p := by
  have hh := here?_of_tokens hs
  rw [skipWhile]
  split
  · simp_all
  · rename_i u hu
    obtain rfl : u = t := by simpa [hh] using hu.symm
    rw [if_pos hp]

theorem skipWhile_of_neg [Log α] {s : Reader α} {p : Token → Bool} (hs : s.tokens = t :: ts)
    (hp : p t = false) : s.skipWhile p = s := by
  have hh := here?_of_tokens hs
  rw [skipWhile]
  split
  · rfl
  · rename_i u hu
    obtain rfl : u = t := by simpa [hh] using hu.symm
    rw [hp]
    rfl

theorem here?_skipWhile {p : Token → Bool} {s : Reader} (h : (s.skipWhile p).here? = some t) :
    p t = false := by
  fun_induction skipWhile p s with
  | case1 s hs => simp [hs] at h
  | case2 s u hs hp ih => exact ih h
  | case3 s u hs hp =>
    obtain rfl : u = t := by simpa [hs] using h
    simpa using hp

/-- Taking a token adds the first of the events that were to come. -/
theorem advance_events (h : here? s = some t) :
    ∃ es, s.advance.trace.toList = s.trace.toList ++ es ∧
      s.upcoming = es ++ s.advance.upcoming := by
  cases hr : s.rest with
  | nil => simp [here?, hr] at h
  | cons r rs =>
    refine ⟨(rs.headD s.final).events, by simp [advance, hr], ?_⟩
    cases rs <;> simp [advance, upcoming, hr]

theorem story_advance (h : here? s = some t) : s.advance.story = s.story := by
  obtain ⟨es, htrace, hes⟩ := advance_events h
  rw [story, story, htrace, hes, List.append_assoc]

theorem story_advance_of_sees {s : Reader} {code : Int} (h : s.sees code = true) :
    s.advance.story = s.story := by
  obtain ⟨t, ht⟩ := here?_of_sees h
  exact story_advance ht

def advanceBy : Nat → Reader → Reader
  | 0, s => s
  | n + 1, s => advanceBy n s.advance

theorem advanceBy_add (m n : Nat) (s : Reader) :
    advanceBy (m + n) s = advanceBy n (advanceBy m s) := by
  induction m generalizing s with
  | zero => rw [Nat.zero_add, advanceBy]
  | succ m ih => rw [Nat.succ_add, advanceBy, ih, advanceBy]

theorem tokens_advanceBy (n : Nat) (s : Reader) : (advanceBy n s).tokens = s.tokens.drop n := by
  induction n generalizing s with
  | zero => rfl
  | succ n ih => rw [advanceBy, ih, tokens_advance, List.drop_tail]

theorem story_advanceBy (h : n ≤ s.tokens.length) : (advanceBy n s).story = s.story := by
  induction n generalizing s with
  | zero => rfl
  | succ n ih =>
    cases hs : s.tokens with
    | nil => simp [hs] at h
    | cons t ts =>
      rw [hs, List.length_cons] at h
      rw [advanceBy, ih (by rw [tokens_advance_of hs]; omega), story_advance (here?_of_tokens hs)]

theorem mem_story_advance (h : e ∈ (advance s).story) : e = .ended none ∨ e ∈ s.story := by
  cases hs : s.here? with
  | some t =>
    rw [story_advance hs] at h
    exact .inr h
  | none =>
    have hr : s.rest = [] := by simpa [here?] using hs
    simpa [advance, story, upcoming, hr, or_comm] using h

theorem story_emit (s : Reader) (e : Event) :
    (s.emit e).story = s.trace.toList ++ e :: s.upcoming := by
  simp [story, emit, upcoming]

theorem mem_story_emit {s : Reader} : e ∈ (s.emit f).story ↔ e = f ∨ e ∈ s.story := by
  rw [story_emit, story]
  simp only [List.mem_append, List.mem_cons]
  grind

/-- No violation of the grammar is reported. -/
def Clean (s : Reader) : Prop := ∀ c n, Event.fault c n ∉ s.story

theorem clean_emit {s : Reader} (h : ∀ c n, e ≠ .fault c n) : (s.emit e).Clean ↔ s.Clean := by
  simp only [Clean, mem_story_emit, not_or]
  exact ⟨fun hs c n => (hs c n).2, fun hs c n => ⟨(h c n).symm, hs c n⟩⟩

@[simp] theorem not_clean_report (s : Reader) (c : Cause) (n : Nat) : ¬ (s.report c n).Clean := by
  intro h
  exact h c n (mem_story_emit.2 (.inl rfl))

@[simp] theorem not_clean_unexpected (s : Reader) (w : Wanted) : ¬ (s.unexpected w).Clean :=
  not_clean_report _ _ _

/-- The second reader stands before `rest`, and nothing was reported on the way to it. -/
structure Passes (s s' : Reader) (rest : List Token) : Prop where
  tokens_eq : s'.tokens = rest
  clean : s.Clean → s'.Clean

theorem Passes.refl (s : Reader) : Passes s s s.tokens := ⟨rfl, id⟩

theorem Passes.trans (h : Passes s s' ts) (k : Passes s' s'' us) : Passes s s'' us :=
  ⟨k.tokens_eq, k.clean ∘ h.clean⟩

theorem Passes.emit (s : Reader) (h : ∀ c n, e ≠ .fault c n) : Passes s (s.emit e) s.tokens :=
  ⟨rfl, (clean_emit h).2⟩

/-- The second reader is the first after tokens were taken from it, with nothing added, and stands
before `rest`. -/
structure Takes (s s' : Reader) (rest : List Token) : Prop where
  tokens_eq : s'.tokens = rest
  eq_advanceBy : ∃ n ≤ s.tokens.length, s' = s.advanceBy n

theorem Takes.refl (h : tokens s = ts) : Takes s s ts := ⟨h, 0, Nat.zero_le _, rfl⟩

theorem Takes.trans (h : Takes s s' ts) (k : Takes s' s'' us) : Takes s s'' us := by
  obtain ⟨-, m, hm, rfl⟩ := h
  obtain ⟨hus, n, hn, rfl⟩ := k
  rw [tokens_advanceBy, List.length_drop] at hn
  exact ⟨hus, m + n, by omega, (advanceBy_add m n s).symm⟩

theorem Takes.advance (h : tokens s = t :: ts) : Takes s s.advance ts :=
  ⟨tokens_advance_of h, 1, by simp [h], rfl⟩

theorem Takes.expectSemicolon (h : tokens s = c :: ts) (hc : c.is Code.semicolon = true) :
    Takes s s.expectSemicolon ts := by
  rw [Reader.expectSemicolon, sees_of_tokens h, if_pos hc]
  exact .advance h

theorem Takes.eq (h : Takes s s' us) (hs : s.tokens = ts ++ us) : s' = s.advanceBy ts.length := by
  obtain ⟨hus, n, hn, rfl⟩ := h
  have hlength := congrArg List.length hus
  rw [tokens_advanceBy, List.length_drop, hs, List.length_append] at hlength
  rw [hs, List.length_append] at hn
  rw [show n = ts.length by omega]

theorem Takes.passes (h : Takes s s' ts) : Passes s s' ts := by
  obtain ⟨hts, n, hn, rfl⟩ := h
  refine ⟨hts, ?_⟩
  rw [Clean, Clean, story_advanceBy hn]
  exact id

theorem Passes.advance (h : tokens s = t :: ts) : Passes s s.advance ts :=
  (Takes.advance h).passes

theorem Passes.expectSemicolon (h : tokens s = c :: ts) (hc : c.is Code.semicolon = true) :
    Passes s s.expectSemicolon ts :=
  (Takes.expectSemicolon h hc).passes

/-- At the last token the brackets have to be closed, and behind it is the end of the source. -/
theorem trace_balance_advance (h : tokens s = [d]) :
    (s.emit .balance).advance.trace.toList = s.trace.toList ++ .balance :: s.final.events := by
  obtain ⟨r, hr, -⟩ := List.map_eq_singleton_iff.1 h
  simp [Reader.emit, Reader.advance, hr]

end PascalCheck.Reader
